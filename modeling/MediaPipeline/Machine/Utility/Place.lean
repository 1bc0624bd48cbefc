import MediaPipeline.Machine.Utility.Basic

/-!
# Making and removing

`mkdir`, `ln`, `rm` and `touch` change what there is on the disk.
-/

namespace MediaPipeline.Machine.Utility

/-! ## Directories -/

/-- The paths of a path and the directories on the way to it, outermost first. -/
def pathsTo (path : String) : List String :=
  let cs := path.toList
  let cuts := (List.range cs.length).filter fun i =>
    0 < i && cs[i]? = some '/' && cs[i - 1]? ≠ some '/'
  let body := Disk.trimSlashes path
  (cuts.map fun i => String.ofList (cs.take i)).filter (· ≠ body) ++ [path]

/-- Make the directories of paths that are not there yet. The first one that cannot
be made is named. -/
def makePaths (c : UtilityContext) (verbose : Bool) : List String → World → Bool × World
  | [], w => (true, w)
  | path :: rest, w =>
    if w.disk.isDirectory c.cwd path then makePaths c verbose rest w
    else
      match w.disk.makeDirectory c.cwd path with
      | .ok disk =>
        let w := { w with disk := disk }
        let w := if verbose then
            w.print c.output (c.name ++ ": created directory " ++ Quoting.plain path ++ "\n")
          else w
        makePaths c verbose rest w
      | .error e =>
        let e := if w.disk.isPresent c.cwd path ∧ rest ≠ [] then OsError.notADirectory else e
        (false, complain c w
          ("cannot create directory " ++ Quoting.plain path ++ ": " ++ e.shortMessage))

/-- Make directories one after the other. -/
def mkdirAll (c : UtilityContext) (parents verbose : Bool) :
    List String → Nat → World → Nat × World
  | [], status, w => (status, w)
  | operand :: rest, status, w =>
    let paths := if parents && !operand.isEmpty then pathsTo operand else [operand]
    let (made, w) :=
      if !parents && w.disk.isDirectory c.cwd operand then
        (false, complain c w
          ("cannot create directory " ++ Quoting.plain operand ++ ": File exists"))
      else makePaths c verbose paths w
    mkdirAll c parents verbose rest (if made then status else 1) w

/-- Whether a text is the mode of a directory: octal digits, or changes in letters. -/
def isMode (s : String) : Bool :=
  let cs := s.toList
  let octal := cs.all fun c => '0' ≤ c && c ≤ '7'
  let changes := cs.all fun c => "ugoarwxXst=+-,".toList.contains c
  !cs.isEmpty && (octal || changes)

/-- The options of `mkdir`. -/
def mkdirRules : List OptionRule :=
  [⟨'p', "parents", false⟩, ⟨'v', "verbose", false⟩, ⟨'m', "mode", true⟩]

/-- Make directories. -/
def mkdir : Utility := fun c args w =>
  let a := Arguments.read mkdirRules false args
  match a.fault with
  | some text => usage c w text
  | none =>
    if a.operands.isEmpty then usage c w "missing operand"
    else
      match a.options.find? fun o => o.1 = 'm' && !isMode o.2 with
      | some (_, mode) => fail c w ("invalid mode " ++ Quoting.plain mode)
      | none => mkdirAll c (a.has 'p') (a.has 'v') a.operands 0 w

/-! ## Links -/

/-- How links are made. -/
structure LinkStyle where
  symbolic : Bool
  force : Bool
  verbose : Bool

/-- The path of something with the last name of a target in a directory. -/
def inDirectory (directory target : String) : String :=
  (Path.join ⟨directory⟩ ⟨(Path.fileName? ⟨target⟩).getD target⟩).text

/-- Make one link. -/
def linkOne (c : UtilityContext) (style : LinkStyle) (target name : String) (w : World) :
    Bool × World :=
  let refused (text : String) : Bool × World := (false, complain c w text)
  let failed (e : OsError) : Bool × World :=
    refused ("failed to create " ++ (if style.symbolic then "symbolic" else "hard") ++ " link " ++
      Quoting.name name ++
      (if style.symbolic then (if target.isEmpty then " -> " ++ Quoting.name target else "")
      else if e = .fileExists then "" else " => " ++ Quoting.name target) ++
      ": " ++ e.shortMessage)
  let source : Except OsError Node :=
    if style.symbolic then (if target.isEmpty then .error .notFound else .ok (.link target))
    else (w.disk.lookup c.cwd true target).map (·.2)
  match source with
  | .error e =>
    if style.symbolic then failed e
    else refused ("failed to access " ++ Quoting.name target ++ ": " ++ e.shortMessage)
  | .ok .directory => refused (Quoting.label target ++ ": hard link not allowed for directory")
  | .ok node =>
    match w.disk.walk c.cwd false name with
    | .error e => failed e
    | .ok place =>
      let made : Bool × World :=
        let w := { w with disk := w.disk.put place node }
        let arrow := if style.symbolic then " -> " else " => "
        (true, if style.verbose then
            w.print c.output (Quoting.name name ++ arrow ++ Quoting.name target ++ "\n")
          else w)
      match w.disk.node? place with
      | none => made
      | some .directory =>
        if style.force then refused (Quoting.label name ++ ": cannot overwrite directory")
        else failed .fileExists
      | some old =>
        if !style.force then failed .fileExists
        else if old.isSameFile node then
          refused (Quoting.name target ++ " and " ++ Quoting.name name ++ " are the same file")
        else made

/-- Make links in a directory. -/
def linkAll (c : UtilityContext) (style : LinkStyle) (directory : String) :
    List String → Nat → World → Nat × World
  | [], status, w => (status, w)
  | target :: rest, status, w =>
    let (made, w) := linkOne c style target (inDirectory directory target) w
    linkAll c style directory rest (if made then status else 1) w

/-- The options of `ln`. -/
def lnRules : List OptionRule :=
  [⟨'s', "symbolic", false⟩, ⟨'f', "force", false⟩, ⟨'v', "verbose", false⟩,
    ⟨'n', "no-dereference", false⟩, ⟨'T', "no-target-directory", false⟩,
    ⟨'t', "target-directory", true⟩, ⟨'L', "logical", false⟩, ⟨'P', "physical", false⟩]

/-- Make links. The last of several operands is the new name, or a directory for the
new names; one operand gets a name in the current directory. -/
def ln : Utility := fun c args w =>
  let a := Arguments.read lnRules false args
  let style : LinkStyle := ⟨a.has 's', a.has 'f', a.has 'v'⟩
  let single (target name : String) : Nat × World :=
    let (made, w) := linkOne c style target name w
    (if made then 0 else 1, w)
  let isDirectory (path : String) : Bool :=
    w.disk.isDirectory c.cwd path &&
      !(a.has 'n' && (w.disk.lookup c.cwd false path).toOption.any fun p =>
        match p.2 with
        | .link _ => true
        | _ => false)
  match a.fault, a.operands with
  | some text, _ => usage c w text
  | none, [] => usage c w "missing file operand"
  | none, targets =>
    if a.has 'T' then
      match targets with
      | [target, name] => single target name
      | [target] => usage c w ("missing destination file operand after " ++ Quoting.name target)
      | targets => usage c w ("extra operand " ++ Quoting.name (targets[2]?.getD ""))
    else
      match (a.options.filter fun o => o.1 = 't').getLast?, targets.reverse with
      | some (_, directory), _ => linkAll c style directory targets 0 w
      | none, [_] => linkAll c style "." targets 0 w
      | none, last :: before =>
        if isDirectory last then linkAll c style last before.reverse 0 w
        else
          match before with
          | [target] => single target last
          | _ =>
            let e := match w.disk.lookup c.cwd true last with
              | .ok _ => OsError.notADirectory
              | .error e => e
            fail c w ("target " ++ Quoting.name last ++ ": " ++ e.shortMessage)
      | none, [] => (0, w)

/-! ## Files -/

/-- Remove files one after the other. -/
def rmAll (c : UtilityContext) (deep force : Bool) : List String → Nat → World → Nat × World
  | [], status, w => (status, w)
  | operand :: rest, status, w =>
    let refused (e : String) : Nat × World :=
      rmAll c deep force rest 1
        (complain c w ("cannot remove " ++ Quoting.name operand ++ ": " ++ e))
    match w.disk.lookup c.cwd false operand with
    | .error e =>
      if force && (e = .notFound || e = .notADirectory) then rmAll c deep force rest status w
      else refused e.shortMessage
    | .ok (place, .directory) =>
      if deep then rmAll c deep force rest status { w with disk := w.disk.prune place }
      else refused "Is a directory"
    | .ok (place, _) => rmAll c deep force rest status { w with disk := w.disk.prune place }

/-- The options of `rm`. -/
def rmRules : List OptionRule :=
  [⟨'r', "recursive", false⟩, ⟨'R', "", false⟩, ⟨'f', "force", false⟩]

/-- Remove files. -/
def rm : Utility := fun c args w =>
  let a := Arguments.read rmRules false args
  match a.fault with
  | some text => usage c w text
  | none =>
    if a.operands.isEmpty && !a.has 'f' then usage c w "missing operand"
    else rmAll c (a.has 'r' || a.has 'R') (a.has 'f') a.operands 0 w

/-- Make files that are not there. -/
def touchAll (c : UtilityContext) (makes : Bool) : List String → Nat → World → Nat × World
  | [], status, w => (status, w)
  | operand :: rest, status, w =>
    if !makes && !w.disk.isPresent c.cwd operand then touchAll c makes rest status w
    else
      match w.disk.openForWriting c.cwd true operand with
      | .ok (_, disk) => touchAll c makes rest status { w with disk := disk }
      | .error .isADirectory => touchAll c makes rest status w
      | .error e =>
        touchAll c makes rest 1
          (complain c w ("cannot touch " ++ Quoting.name operand ++ ": " ++ e.shortMessage))

/-- Make files. -/
def touch : Utility := fun c args w =>
  let a := Arguments.read [⟨'c', "no-create", false⟩] false args
  match a.fault with
  | some text => usage c w text
  | none =>
    if a.operands.isEmpty then usage c w "missing file operand"
    else touchAll c (!a.has 'c') a.operands 0 w

end MediaPipeline.Machine.Utility
