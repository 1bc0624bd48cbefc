import MediaPipeline.Store.Lookup
import MediaPipeline.Template.Arguments
import MediaPipeline.Template.Block

/-!
# Evaluating templates

A template is evaluated in a scope of a store. Loops write their index to the
dynamic parameter of their name, and what they wrote stays, also when the
evaluation fails later.
-/

namespace MediaPipeline.Template

/-- A computation that may change the store and may fail; a failure keeps the
changes made before it. -/
abbrev StoreM := ExceptT Cause (StateM Store)

/-- Carry out a computation on a store. -/
def StoreM.result {α : Type} (act : StoreM α) (s : Store) : Except Cause α × Store :=
  act.run.run s

namespace StoreM

variable {α β : Type}

@[simp] theorem result_pure (a : α) (s : Store) : (pure a : StoreM α).result s = (.ok a, s) := rfl

@[simp] theorem result_throw (c : Cause) (s : Store) :
    (throw c : StoreM α).result s = (.error c, s) := rfl

@[simp] theorem result_get (s : Store) : (get : StoreM Store).result s = (.ok s, s) := rfl

@[simp] theorem result_modify (f : Store → Store) (s : Store) :
    (modify f : StoreM PUnit).result s = (.ok ⟨⟩, f s) := rfl

@[simp] theorem result_liftM (r : Except Cause α) (s : Store) :
    (liftM r : StoreM α).result s = (r, s) := by
  cases r <;> rfl

theorem result_bind (act : StoreM α) (f : α → StoreM β) (s : Store) :
    (act >>= f).result s =
      match act.result s with
      | (.ok a, t) => (f a).result t
      | (.error e, t) => (.error e, t) := by
  simp only [result, bind, ExceptT.bind, ExceptT.mk, ExceptT.run, StateT.run, StateT.bind]
  rcases act s with ⟨_ | _, _⟩ <;> rfl

theorem result_map (act : StoreM α) (f : α → β) (s : Store) :
    (act >>= fun a => pure (f a)).result s = ((act.result s).1.map f, (act.result s).2) := by
  rw [result_bind]
  rcases act.result s with ⟨_ | _, _⟩ <;> rfl

theorem result_read (read : Store → Except Cause α) (f : α → StoreM β) (s : Store) :
    (do let a ← read (← get); f a : StoreM β).result s =
      match read s with
      | .ok a => (f a).result s
      | .error e => (.error e, s) := by
  rw [result_bind, result_get]
  show ((liftM (read s) : StoreM α) >>= f).result s = _
  rw [result_bind, result_liftM]
  cases read s <;> rfl

end StoreM

/-- The indices of a loop: consecutive numbers. -/
structure IndexRange where
  first : Int
  length : Nat
deriving DecidableEq

namespace IndexRange

/-- From the first to the last index, both included; empty if they are reversed. -/
def inclusive (first last : Int) : IndexRange := ⟨first, (last - first + 1).toNat⟩

/-- So many indices from the first one; none if the last would not fit into a
signed 64-bit number. -/
def counted? (first count : Int) : Option IndexRange :=
  if count = 0 then some ⟨1, 0⟩
  else if first + (count - 1) ≤ Text.maxInt then some ⟨first, count.toNat⟩
  else none

/-- The indices in order. -/
def toList (r : IndexRange) : List Int :=
  (List.range r.length).map fun (i : Nat) => r.first + (i : Int)

end IndexRange

/-- Do something once for each of `n` indices from `i`, each time after writing
the index to a dynamic parameter. -/
def forIndices {α : Type} (var : String) (act : StoreM (List α)) : Nat → Int → StoreM (List α)
  | 0, _ => pure []
  | n + 1, i => do
    modify fun s => s.setDynamic var (Text.showInt i)
    let here ← act
    let rest ← forIndices var act n (i + 1)
    pure (here ++ rest)

/-- The position that an index stands for. -/
def siblingSelector (store : Store) (scope : Scope) (r : Reference) :
    Except Cause Store.Selector :=
  match r.index with
  | none => .ok .current
  | some (.position i) => .ok (.index i)
  | some (.variable var) =>
    match store.getParameter .dynamic scope var with
    | .error missing => .error (.paramNotFound r.raw (.unsetIndex missing))
    | .ok value =>
      match Text.size? (Text.trim value.toList) with
      | some i => .ok (.index i)
      | none => .error (.paramNotFound r.raw (.badIndex var value))

/-- The value of a reference; its absence is a failure. -/
def resolve (store : Store) (scope : Scope) (r : Reference) : Except Cause String := do
  let selector ← siblingSelector store scope r
  match store.lookup r.kind scope selector r.name with
  | .ok value => pure value
  | .error missing => .error (.paramNotFound r.raw (.unbound missing.reason))

/-- The value of a word. -/
def Word.eval (store : Store) (scope : Scope) : Word → Except Cause (List Char)
  | [] => .ok []
  | .char c :: w => do
    let rest ← eval store scope w
    pure (c :: rest)
  | .reference r :: w => do
    let value ← resolve store scope r
    let rest ← eval store scope w
    pure (value.toList ++ rest)

/-- The truth of a condition. `source` is the text it was read from. -/
def Condition.eval (store : Store) (scope : Scope) (source : String) :
    Condition → Except Cause Bool
  | .flag negated w => do
    let value := String.ofList (← w.eval store scope)
    match parseFlag value with
    | some truth => pure (truth != negated)
    | none => .error (.template source (.notBoolean value))
  | .compare left comparison right => do
    let l ← left.eval store scope
    let r ← right.eval store scope
    pure (match comparison with
      | .equal => l == r
      | .different => l != r)

/-- The integer that a bound stands for. -/
def boundValue (store : Store) (scope : Scope) (source argument : String) (w : Word) :
    Except Cause Int := do
  let value ← w.eval store scope
  match Text.int? (Text.trim value) with
  | some n => pure n
  | none => .error (.template source (.boundNotInteger argument (String.ofList value)))

/-- The indices of a loop. -/
def LoopHead.range (store : Store) (scope : Scope) (source : String) (head : LoopHead) :
    Except Cause IndexRange := do
  let first ← match head.first with
    | some w => boundValue store scope source "from" w
    | none => pure 0
  match head.bound with
  | .last w => do
    let last ← boundValue store scope source "to" w
    pure (.inclusive first last)
  | .count w => do
    let count ← boundValue store scope source "count" w
    if count < 0 then .error (.template source (.negativeCount head.var count))
    else
      match IndexRange.counted? first count with
      | some range => pure range
      | none => .error (.template source (.countOverflow head.var first count))

/-- The output of a block tree. -/
def Block.eval (scope : Scope) (source : String) : Block → StoreM (List Chunk)
  | .done => pure []
  | .text cs rest => do
    let out ← rest.eval scope source
    pure (.text cs :: out)
  | .reference r rest => do
    let value ← resolve (← get) scope r
    let out ← rest.eval scope source
    pure (.value value :: out)
  | .loop head body rest => do
    let range ← head.range (← get) scope source
    let here ← forIndices head.var (body.eval scope source) range.length range.first
    let out ← rest.eval scope source
    pure (here ++ out)
  | .branch condition yes no rest => do
    let taken ← condition.eval (← get) scope source
    let here ← if taken then yes.eval scope source else no.eval scope source
    let out ← rest.eval scope source
    pure (here ++ out)

end MediaPipeline.Template
