import MediaPipeline.Machine.Utility
import MediaPipeline.Shell.Arithmetic
import MediaPipeline.Shell.Builtin
import MediaPipeline.Shell.Image
import MediaPipeline.Shell.Parse
import MediaPipeline.Shell.Pattern

/-!
# Running shell scripts

Scripts run in the state of a shell. The stages of a pipeline run one after the
other, each to its end; `fuel` bounds the number of nested steps, and a script
that runs out of it ends with a failure.
-/

namespace MediaPipeline.Shell

open Machine (World Place Utility Node)

/-- The status that a shell sees of a program. -/
def statusOf : ExitStatus → Nat
  | .exited n => n
  | .signaled n => 128 + n

/-- What is said of a program that was killed. -/
def killNotice : ExitStatus → String
  | .signaled 9 => "Killed\n"
  | .signaled 15 => "Terminated\n"
  | .signaled 11 => "Segmentation fault\n"
  | .signaled 6 => "Aborted\n"
  | _ => ""

/-- How an outer loop goes on after an inner one was left. -/
def afterLoop : Flow → Flow
  | .leave n => if n ≤ 1 then .next else .leave (n - 1)
  | .again n => if n ≤ 1 then .next else .again (n - 1)
  | f => f

/-- Whether a loop ends with this flow of its body. -/
def endsLoop : Flow → Bool
  | .next => false
  | .again n => 1 < n
  | _ => true

/-- The pieces of a substituted text. -/
def substituted (quoted : Bool) (text : String) : List Piece :=
  text.toList.map fun c => if quoted then .char c true else .loose c

/-- The pieces of the positional parameters as separate fields. -/
def separateFields (quoted : Bool) : List String → List Piece
  | [] => []
  | [p] => (if quoted then [.mark] else []) ++ substituted quoted p
  | p :: ps =>
    (if quoted then [.mark] else []) ++ substituted quoted p ++ .border :: separateFields quoted ps

/-- Text without line ends at its end. -/
def trimLines (cs : List Char) : List Char := (cs.reverse.dropWhile (· = '\n')).reverse

/-- Whether a tilde in front of these parts stands for the home directory. -/
def endsTilde : ShellWord → Bool
  | [] | .text ['/'] false :: _ => true
  | _ => false

/-- The home directory, or a tilde if there is none. -/
def homePieces (s : ShellState) : List Piece :=
  ((s.get? "HOME").getD "~").toList.map fun c => .char c true

/-- The state inside one more loop. -/
def ShellState.deeper (s : ShellState) : ShellState := { s with loops := s.loops + 1 }

/-- The state after a function: its own variables have their former values. -/
def ShellState.leaveFunction (inner outer : ShellState) : ShellState :=
  let s := (inner.locals.getD []).foldl
    (fun s (p : String × Option String) => s.restore p.1 p.2) inner
  { s with positional := outer.positional, loops := outer.loops, locals := outer.locals }

/-- The reason that is given for a file that could not be opened, where `missing`
stands for one that is not there. -/
def openFault (missing : String) : OsError → String
  | .notFound | .notADirectory => missing
  | e => e.shortMessage

/-- What stops an expansion: a message was printed, and the script ends. -/
abbrev Expanded (α : Type) := Option α × ShellState

/-- End the script after a failure, if the shell is set to do so. -/
def stop : Flow × ShellState → Flow × ShellState
  | (.next, s) => if s.stopOnError && s.status ≠ 0 then (.exit, s) else (.next, s)
  | r => r

mutual

/-- Expand a part of a word. -/
def expandPart : Nat → Part → ShellState → Expanded (List Piece)
  | 0, _, s => (none, s)
  | _ + 1, .text cs quoted, s =>
    (some (if quoted ∧ cs.isEmpty then [.mark]
      else (if quoted then [.mark] else []) ++ cs.map fun c => .char c quoted), s)
  | fuel + 1, .command text quoted, s =>
    match parse? text with
    | none => (none, (s.complain "Syntax error").withStatus 2)
    | some script =>
      let (sink, world) := s.world.openStream (.sink .empty)
      let inner := { s with world := world }.setStream 1 (some sink)
      let (flow, after) := runScript fuel script inner
      let status := match flow with
        | .killed n => 128 + n
        | _ => after.status
      let out := Text.ofBytes (after.world.sunk sink)
      let text := String.ofList (trimLines out.toList)
      (some ((if quoted then [.mark] else []) ++ substituted quoted text),
        { s with world := after.world, status := status })
  | fuel + 1, .arithmetic text quoted, s =>
    match readQuoted true (text.length + 1) text with
    | none => (none, (s.complain "Syntax error").withStatus 2)
    | some (w, _) =>
      match expandParts fuel none w s with
      | (none, s) => (none, s)
      | (some ps, s) =>
        let expression := piecesText ps
        match Arithmetic.evaluate s.vars expression with
        | .ok (n, vars) => (some (substituted quoted (Text.showInt n)), { s with vars := vars })
        | .error e =>
          (none, (s.complain ("arithmetic expression: " ++ e.message ++ ": \"" ++
            String.ofList expression ++ "\"")).withStatus 2)
  | fuel + 1, .parameter name op text quoted, s =>
    let value := s.parameter name
    let mark : List Piece := if quoted then [.mark] else []
    let plain : List Piece := mark ++ substituted quoted (value.getD "")
    if name = "@" ∧ op = [] then (some (separateFields quoted s.positional), s)
    else if name = "*" ∧ op = [] ∧ quoted = false then (some (separateFields false s.positional), s)
    else if s.stopOnUnset ∧ value.isNone ∧ (op = [] ∨ op = ['l', 'e', 'n']) ∧ name ≠ "@" ∧
        name ≠ "*" then
      (none, (s.complain (name ++ ": parameter not set")).withStatus 2)
    else if op = [] then (some plain, s)
    else if op = ['l', 'e', 'n'] then
      (some (mark ++ substituted quoted (toString (value.getD "").length)), s)
    else
      let parsed := if quoted then (readQuoted true (text.length + 1) text).map (·.1)
        else readAll (text.length + 1) text
      match parsed with
      | none => (none, (s.complain "Syntax error").withStatus 2)
      | some w =>
        let checksEmpty := op.head? = some ':'
        let missing := value.isNone || (checksEmpty && value == some "")
        let kind := if checksEmpty then op.tail else op
        let other (s : ShellState) : Expanded (List Piece) :=
          match expandParts fuel none w s with
          | (none, s) => (none, s)
          | (some ps, s) =>
            (some (ps.map fun
              | .char c false => .loose c
              | p => p), s)
        match kind with
        | ['-'] => if missing then other s else (some plain, s)
        | ['+'] => if missing then (some mark, s) else other s
        | ['='] =>
          if missing then
            match other s with
            | (none, s) => (none, s)
            | (some ps, s) => (some ps, s.assign name (String.ofList (piecesText ps)))
          else (some plain, s)
        | ['?'] =>
          if missing then
            match other s with
            | (none, s) => (none, s)
            | (some ps, s) =>
              let text := String.ofList (piecesText ps)
              (none, (s.complain (name ++ ": " ++
                (if text.isEmpty then "parameter not set" else text))).withStatus 2)
          else (some plain, s)
        | _ =>
          match expandParts fuel none w s with
          | (none, s) => (none, s)
          | (some ps, s) =>
            let cs := (value.getD "").toList
            let pattern := piecesPattern ps
            let left := match kind with
              | ['#'] => removeStart false pattern cs
              | ['#', '#'] => removeStart true pattern cs
              | ['%'] => removeEnd false pattern cs
              | _ => removeEnd true pattern cs
            (some (mark ++ substituted quoted (String.ofList left)), s)

/-- Expand the parts of a word. A closing quote right after quoted parameters, of
which there are none, makes no field. -/
def expandParts : Nat → Option Part → ShellWord → ShellState → Expanded (List Piece)
  | 0, _, _, s => (none, s)
  | _ + 1, _, [], s => (some [], s)
  | fuel + 1, before, part :: rest, s =>
    let (here, s) : Expanded (List Piece) :=
      match before, part with
      | some (.parameter "@" [] _ true), .text [] true => (some [], s)
      | none, .text ['~'] false =>
        if endsTilde rest then (some (homePieces s), s) else expandPart fuel part s
      | _, _ => expandPart fuel part s
    match here with
    | none => (none, s)
    | some ps =>
      match expandParts fuel (some part) rest s with
      | (none, s) => (none, s)
      | (some more, s) => (some (ps ++ more), s)

/-- Expand words to fields. -/
def expandWords : Nat → List ShellWord → ShellState → Expanded (List String)
  | 0, _, s => (none, s)
  | _ + 1, [], s => (some [], s)
  | fuel + 1, w :: ws, s =>
    match expandParts fuel none w s with
    | (none, s) => (none, s)
    | (some ps, s) =>
      let fields := (splitFields s.separators none ps).flatMap (expandPaths s.world s.cwd)
      match expandWords fuel ws s with
      | (none, s) => (none, s)
      | (some more, s) => (some (fields ++ more), s)

/-- Expand a word to one text. -/
def expandText : Nat → ShellWord → ShellState → Expanded String
  | 0, _, s => (none, s)
  | fuel + 1, w, s =>
    match expandParts fuel none w s with
    | (none, s) => (none, s)
    | (some ps, s) => (some (String.ofList (piecesText ps)), s)

/-- Carry out redirections. -/
def redirect : Nat → List Redirection → ShellState → Expanded Unit
  | 0, _, s => (none, s)
  | _ + 1, [], s => (some (), s)
  | fuel + 1, r :: rs, s =>
    match expandText fuel r.word s with
    | (none, s) => (none, s)
    | (some text, s) =>
      match r.kind with
      | .duplicate =>
        if text = "-" then redirect fuel rs (s.setStream r.descriptor none)
        else
          match (Text.digits? text.toList).bind s.stream? with
          | some n => redirect fuel rs (s.setStream r.descriptor (some n))
          | none => (none, (s.complain (text ++ ": Bad file descriptor")).withStatus 2)
      | .document =>
        let (n, world) := s.world.openStream (.source text.toUTF8 0)
        redirect fuel rs ({ s with world := world }.setStream r.descriptor (some n))
      | .read =>
        match s.world.openForReading s.cwd text with
        | (.ok n, world) =>
          redirect fuel rs ({ s with world := world }.setStream r.descriptor (some n))
        | (.error .isADirectory, world) =>
          let (n, world) := world.openStream (.source .empty 0)
          redirect fuel rs ({ s with world := world }.setStream r.descriptor (some n))
        | (.error e, _) =>
          (none, (s.complain ("cannot open " ++ text ++ ": " ++
            openFault "No such file" e)).withStatus 2)
      | .write | .append =>
        match s.world.openForWriting s.cwd (r.kind = .append) text with
        | (.ok n, world) =>
          redirect fuel rs ({ s with world := world }.setStream r.descriptor (some n))
        | (.error e, _) =>
          (none, (s.complain ("cannot create " ++ text ++ ": " ++
            openFault "Directory nonexistent" e)).withStatus 2)

/-- Carry out assignments in order. -/
def assignAll : Nat → List (String × ShellWord) → ShellState → Expanded (List String)
  | 0, _, s => (none, s)
  | _ + 1, [], s => (some [], s)
  | fuel + 1, (name, w) :: rest, s =>
    match expandText fuel w s with
    | (none, s) => (none, s)
    | (some value, s) =>
      match assignAll fuel rest (s.assign name value) with
      | (none, s) => (none, s)
      | (some names, s) => (some (name :: names), s)

/-- Run a program with the descriptors and exported variables of a shell. `label`
stands in front of the message if it cannot be started. -/
def runProgram : Nat → String → List String → ShellState → ExitStatus × World
  | 0, _, _, s => (.exited 1, s.world)
  | fuel + 1, label, argv, s =>
    let program := argv.headD ""
    match findImage s.world s.cwd program with
    | .error e =>
      let reason := if program.isEmpty then "Permission denied" else openFault "not found" e
      let s := s.complain (label ++ program ++ ": " ++ reason)
      (.exited (if e = .permissionDenied then 126 else 127), s.world)
    | .ok image => runImage fuel image argv s

/-- Run an image. -/
def runImage : Nat → Image → List String → ShellState → ExitStatus × World
  | 0, _, _, s => (.exited 1, s.world)
  | fuel + 1, image, argv, s =>
    let program := argv.headD ""
    match image with
    | .utility name =>
      let (closed, world) := s.world.openStream (.device .null)
      match Utility.named? name with
      | none => (.exited 127, world)
      | some utility =>
        let stream d := (s.stream? d).getD closed
        let r := utility ⟨program, s.cwd, stream 0, stream 1, stream 2⟩ argv.tail world
        (.exited r.1, r.2)
    | .shell => runShell fuel program argv.tail s
    | .script interpreter options path =>
      if interpreter = "sh" then runShell fuel interpreter (options ++ path :: argv.tail) s
      else runImage fuel (.utility interpreter) (interpreter :: options ++ path :: argv.tail) s

/-- Run a shell with its arguments: options, then a script in place, the name of a
script file, or nothing, in which case it reads the script from its input. -/
def runShell : Nat → String → List String → ShellState → ExitStatus × World
  | 0, _, _, s => (.exited 1, s.world)
  | fuel + 1, program, args, s =>
    let visible := s.vars.filter fun v => s.exported.contains v.1
    let fresh := ShellState.start s.world s.cwd visible program (s.pid + 1) s.descriptors
    let options := args.takeWhile fun a => a.toList.head? == some '-' && 1 < a.length
    let rest := args.drop options.length
    let letters := options.flatMap fun o => o.toList.tail
    let fresh := { fresh with
      stopOnError := letters.contains 'e', stopOnUnset := letters.contains 'u' }
    let run (text : List Char) (s : ShellState) : ExitStatus × World :=
      match parse? text with
      | none => (.exited 2, (s.complain "Syntax error").world)
      | some script =>
        match runToEnd fuel script s with
        | (.killed n, s) => (.signaled n, s.world)
        | (_, s) => (.exited (s.status % 256), s.world)
    if letters.contains 'c' then
      match rest with
      | [] => (.exited 2, (fresh.print 2 (program ++ ": 0: -c requires an argument\n")).world)
      | text :: rest =>
        run text.toList { fresh with zero := rest.headD program, positional := rest.tail }
    else
      match rest with
      | [] =>
        match fresh.stream? 0 with
        | none => (.exited 0, fresh.world)
        | some n =>
          let (bytes, world) := fresh.world.read n none
          run (Text.ofBytes bytes).toList { fresh with world := world }
      | file :: rest =>
        match fresh.world.disk.read fresh.cwd file with
        | .error e =>
          (.exited 2, (fresh.print 2 (program ++ ": 0: cannot open " ++ file ++ ": " ++
            openFault "No such file" e ++ "\n")).world)
        | .ok bytes =>
          run (Text.ofBytes bytes).toList { fresh with zero := file, positional := rest }

/-- Run a script, and then what it has set for its end. -/
def runToEnd : Nat → Script → ShellState → Flow × ShellState
  | 0, _, s => (.exit, s.withStatus 1)
  | fuel + 1, script, s =>
    match runScript fuel script s with
    | (.killed n, s) => (.killed n, s)
    | (flow, s) =>
      match s.onExit.bind fun action => parse? action.toList with
      | none => (flow, s)
      | some last =>
        match runScript fuel last { s with onExit := none } with
        | (.exit, s) => (.exit, s)
        | (.killed n, s) => (.killed n, s)
        | (_, after) => (.exit, after.withStatus s.status)

/-- Run a simple command whose words are expanded. -/
def runWords : Nat → List String → ShellState → Flow × ShellState
  | 0, _, s => (.exit, s.withStatus 1)
  | _ + 1, [], s => (.next, s)
  | fuel + 1, name :: args, s =>
    match s.functions.find? fun f => f.1 == name with
    | some (_, body) =>
      let (flow, inner) :=
        runScript fuel body { s with positional := args, loops := 0, locals := some [] }
      (if flow = .return then .next else flow, inner.leaveFunction s)
    | none =>
      match name with
      | "eval" =>
        match parse? (" ".intercalate args).toList with
        | none => Builtin.abort s "eval: Syntax error"
        | some script => runScript fuel script s
      | "." =>
        let file := args.headD ""
        let isPath := file.toList.contains '/'
        let found := if isPath then s.world.disk.read s.cwd file else .error .notFound
        match found with
        | .error _ =>
          Builtin.abort s (if isPath then ".: cannot open " ++ file ++ ": No such file"
            else ".: " ++ file ++ ": not found")
        | .ok bytes =>
          match parse? (Text.ofBytes bytes).toList with
          | none => Builtin.abort s "Syntax error"
          | some script =>
            let (flow, s) := runScript fuel script s
            (if flow = .return then .next else flow, s)
      | "command" =>
        match args with
        | ["-v", name] =>
          if (Builtin.run? name [] s).isSome then (.next, (s.print 1 (name ++ "\n")).withStatus 0)
          else
            match findImage s.world s.cwd name with
            | .ok _ =>
              let path := if name.toList.contains '/' then name else "/usr/bin/" ++ name
              (.next, (s.print 1 (path ++ "\n")).withStatus 0)
            | .error _ => (.next, s.withStatus 127)
        | args => runWords fuel args s
      | "exec" =>
        if args.isEmpty then (.next, s.withStatus 0)
        else
          match runProgram fuel "exec: " args s with
          | (.exited n, world) => (.exit, { s with world := world, status := n })
          | (.signaled n, world) => (.killed n, { s with world := world })
      | _ =>
        match Builtin.run? name args s with
        | some r => r
        | none =>
          let (status, world) := runProgram fuel "" (name :: args) s
          let s := { s with world := world, status := statusOf status }
          (.next, s.print 2 (killNotice status))

/-- Run a script. -/
def runScript : Nat → Script → ShellState → Flow × ShellState
  | 0, _, s => (.exit, s.withStatus 1)
  | fuel + 1, script, s =>
    match script with
    | .skip => (.next, s)
    | .simple line assignments words redirections =>
      let s := { s with line := line }
      let before := s.status
      match expandWords fuel words s with
      | (none, s) => (.exit, s)
      | (some argv, s) =>
        let outer := s.descriptors
        match redirect fuel redirections s with
        | (none, s) =>
          let s := { s with descriptors := outer }
          if Builtin.special.contains (argv.headD "") then (.exit, s) else stop (.next, s)
        | (some (), s) =>
          let vars := s.vars
          let exported := s.exported
          let s :=
            if argv.isEmpty then { s with status := if words.isEmpty then 0 else s.status }
            else s.withStatus before
          match assignAll fuel assignments s with
          | (none, s) => (.exit, { s with descriptors := outer })
          | (some names, s) =>
            if argv.isEmpty then stop (.next, { s with descriptors := outer })
            else
              let passing := { s with exported := names ++ exported }
              let (flow, s) := runWords fuel argv passing
              let s := if argv = ["exec"] then s else { s with descriptors := outer }
              let s := if names.isEmpty then s
                else if Builtin.special.contains (argv.headD "") then
                  { s with exported := exported }
                else { s with vars := vars, exported := exported }
              stop (flow, s)
    | .pipe left right =>
      let (sink, world) := s.world.openStream (.sink .empty)
      let (_, first) := runScript fuel left ({ s with world := world }.setStream 1 (some sink))
      let (source, world) := first.world.openStream (.source (first.world.sunk sink) 0)
      let inner := { s with world := world }.setStream 0 (some source)
      let (flow, second) := runScript fuel right inner
      let status := match flow with
        | .killed n => 128 + n
        | _ => second.status
      stop (.next, { s with world := second.world, status := status })
    | .negate body =>
      let (flow, after) := runScript fuel body { s with stopOnError := false }
      let after := { after with stopOnError := s.stopOnError }
      if flow = .next then (.next, after.withStatus (if after.status = 0 then 1 else 0))
      else (flow, after)
    | .both left right =>
      let (flow, after) := runScript fuel left { s with stopOnError := false }
      let after := { after with stopOnError := s.stopOnError }
      if flow = .next ∧ after.status = 0 then runScript fuel right after else (flow, after)
    | .either left right =>
      let (flow, after) := runScript fuel left { s with stopOnError := false }
      let after := { after with stopOnError := s.stopOnError }
      if flow = .next ∧ after.status ≠ 0 then runScript fuel right after else (flow, after)
    | .sequence left right =>
      let (flow, s) := runScript fuel left s
      if flow = .next then runScript fuel right s else (flow, s)
    | .subshell body =>
      let (flow, inner) := runToEnd fuel body { s with onExit := none }
      let status := match flow with
        | .killed n => 128 + n
        | _ => inner.status
      let after := { s with world := inner.world, status := status }
      match flow with
      | .killed n => (.killed n, after)
      | _ => stop (.next, after)
    | .group body => runScript fuel body s
    | .branch condition yes no =>
      let (flow, after) := runScript fuel condition { s with stopOnError := false }
      let after := { after with stopOnError := s.stopOnError }
      if flow ≠ .next then (flow, after)
      else if after.status = 0 then runScript fuel yes after
      else runScript fuel no (after.withStatus 0)
    | .loop untilTrue condition body =>
      let (flow, after) := runLoop fuel untilTrue condition body 0 s.deeper
      (flow, { after with loops := s.loops })
    | .forEach var words body =>
      let values : Expanded (List String) := match words with
        | none => (some s.positional, s)
        | some ws => expandWords fuel ws s
      match values with
      | (none, s) => (.exit, s)
      | (some values, s) =>
        let (flow, after) := runEach fuel var body values (s.deeper.withStatus 0)
        (flow, { after with loops := s.loops })
    | .choice word arms =>
      match expandText fuel word s with
      | (none, s) => (.exit, s)
      | (some text, s) => runArms fuel text arms (s.withStatus 0)
    | .arm _ _ _ => (.next, s)
    | .function name body =>
      (.next, { s with
        functions := (name, body) :: s.functions.filter fun f => f.1 != name, status := 0 })
    | .redirected body redirections =>
      let outer := s.descriptors
      match redirect fuel redirections s with
      | (none, s) => stop (.next, { s with descriptors := outer })
      | (some (), s) =>
        let (flow, s) := runScript fuel body s
        (flow, { s with descriptors := outer })

/-- Run a loop; `last` is the status of its last round. -/
def runLoop : Nat → Bool → Script → Script → Nat → ShellState → Flow × ShellState
  | 0, _, _, _, _, s => (.exit, s.withStatus 1)
  | fuel + 1, untilTrue, condition, body, last, s =>
    let (flow, after) := runScript fuel condition { s with stopOnError := false }
    let after := { after with stopOnError := s.stopOnError }
    if flow ≠ .next then (afterLoop flow, after)
    else if (after.status = 0) = untilTrue then (.next, after.withStatus last)
    else
      let (flow, s) := runScript fuel body after
      if endsLoop flow then (afterLoop flow, s)
      else runLoop fuel untilTrue condition body s.status s

/-- Run the body of a loop for each value. -/
def runEach : Nat → String → Script → List String → ShellState → Flow × ShellState
  | 0, _, _, _, s => (.exit, s.withStatus 1)
  | _ + 1, _, _, [], s => (.next, s)
  | fuel + 1, var, body, value :: rest, s =>
    let (flow, s) := runScript fuel body (s.assign var value)
    if endsLoop flow then (afterLoop flow, s) else runEach fuel var body rest s

/-- Run the first arm that takes a text. -/
def runArms : Nat → String → Script → ShellState → Flow × ShellState
  | 0, _, _, s => (.exit, s.withStatus 1)
  | fuel + 1, text, .arm patterns body rest, s =>
    match takesAny fuel text patterns s with
    | (none, s) => (.exit, s)
    | (some true, s) => runScript fuel body s
    | (some false, s) => runArms fuel text rest s
  | _ + 1, _, _, s => (.next, s)

/-- Whether one of some patterns takes a text. -/
def takesAny : Nat → String → List ShellWord → ShellState → Expanded Bool
  | 0, _, _, s => (none, s)
  | _ + 1, _, [], s => (some false, s)
  | fuel + 1, text, w :: ws, s =>
    match expandParts fuel none w s with
    | (none, s) => (none, s)
    | (some ps, s) =>
      if Pattern.holds (piecesPattern ps) text.toList then (some true, s)
      else takesAny fuel text ws s

end

end MediaPipeline.Shell
