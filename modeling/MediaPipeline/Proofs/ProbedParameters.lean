import MediaPipeline.Job.Probe
import MediaPipeline.Proofs.FilledParameters

/-!
# Probed parameters

Probing asks a tool about one essence after the other, up to the first fault. What the tool
says is offered to the resource, and in the end each sequence is offered what its first
resource has. An offer is taken where there is a gap, so probing keeps all that a store has,
whether it fails or not; if it succeeds there is no gap left, and a sequence that is offered
the same again takes nothing (`populate_fills`).
-/

namespace MediaPipeline.Probe

open Store (ConsistentMaps SameListing)

variable {σ α β : Type}

/-! ## What a report can say -/

theorem names_value (name : String) (v : Option String) :
    ((v.map fun text => (name, text)).toList.map (·.1)).Sublist [name] := by
  cases v <;> simp

/-- What is said of a stream has names of parameters that probing sets, in their order. -/
theorem names_params (s : StreamReport) (duration : Option String) :
    ((s.params duration).map (·.1)).Sublist params := by
  unfold StreamReport.params
  dsimp only
  rw [List.map_append, List.map_append]
  have hkind {l : List (String × String)} (hl : (l.map (·.1)).Sublist (params.drop 2)) :
      ((s.codec.map fun text => ("codec", text)).toList.map (·.1) ++
        ((s.duration.or duration).map fun text => ("duration", text)).toList.map (·.1) ++
        l.map (·.1)).Sublist params :=
    ((names_value _ _).append (names_value _ _)).append hl
  apply hkind
  split
  · rw [List.map_append, List.map_append]
    exact (((names_value _ _).append (names_value _ _)).append (names_value _ _)).trans
      (List.sublist_append_left _ ["channels", "sample_rate", "channel_layout"])
  · rw [List.map_append, List.map_append]
    exact (((names_value _ _).append (names_value _ _)).append (names_value _ _)).trans
      (List.sublist_append_right ["width", "height", "frame_rate"] _)
  · exact List.nil_sublist _

/-- A report names parameters that probing sets, each at most once and in their order. -/
theorem names_readReport {text : String} {found : List (String × String)}
    (h : readReport text = .ok found) : (found.map (·.1)).Sublist params := by
  unfold readReport at h
  cases hreport : (Json.parse? text).bind Report.decode with
  | none =>
    rw [hreport] at h
    cases h
  | some report =>
    rw [hreport] at h
    dsimp only at h
    cases hstreams : report.streams with
    | nil =>
      rw [hstreams] at h
      cases h
    | cons s rest =>
      rw [hstreams] at h
      obtain rfl := Except.ok.inj h
      exact names_params s report.duration

/-- A parameter that probing sets is stored, not answered. -/
theorem not_builtin {name : String} (h : name ∈ params) (kind : ContextKind) :
    name ∉ kind.builtinNames := by
  revert name
  cases kind <;> decide

theorem ne_essenceParam {name : String} (h : name ∈ params) : name ≠ essenceParam := by
  revert name
  decide

/-! ## Asking the tool -/

/-- What the tool says of an essence. -/
def describe (host : Host σ) (tools : Toolbox) (workspace : Workspace) (essence : String) :
    Run σ (List (String × String)) := do
  let program ← Run.ofExcept (tools.require tool)
  file host program (workspace.resolve ⟨essence⟩)

/-- What the tool says of each of some essences, with the scopes of their resources, up to the
first fault. -/
def survey (host : Host σ) (tools : Toolbox) (workspace : Workspace) :
    List (Scope × String) → Run σ (List (Scope × List (String × String)) × Option Failure)
  | [] => pure ([], none)
  | (scope, essence) :: rest => do
    match ← Run.attempt (describe host tools workspace essence) with
    | .error f => pure ([], some f)
    | .ok found => do
      let more ← survey host tools workspace rest
      pure ((scope, found) :: more.1, more.2)

/-- A part of a run that neither reads nor changes the store. -/
def StoreBlind (act : Run σ α) : Prop :=
  ∀ (s : RunState σ) (store : Store),
    act.result { s with store := store } =
      ((act.result s).1, { (act.result s).2 with store := store })

namespace StoreBlind

theorem pure (a : α) : StoreBlind (pure a : Run σ α) := fun _ _ => rfl

theorem fail (cause : Cause) : StoreBlind (Run.fail cause : Run σ α) := fun _ _ => rfl

theorem machine (f : σ → α × σ) : StoreBlind (Run.machine f) := fun _ _ => rfl

theorem ofExcept (r : Except Cause α) : StoreBlind (Run.ofExcept r : Run σ α) := by
  cases r <;> exact fun _ _ => rfl

theorem bind {act : Run σ α} {f : α → Run σ β} (h : StoreBlind act) (hf : ∀ a, StoreBlind (f a)) :
    StoreBlind (act >>= f) := by
  intro s store
  rw [Run.result_bind, Run.result_bind, h s store]
  rcases act.result s with ⟨e | a, t⟩
  · rfl
  · exact hf a t store

theorem attempt {act : Run σ α} (h : StoreBlind act) : StoreBlind (Run.attempt act) := by
  intro s store
  rw [Run.result_attempt, Run.result_attempt, h s store]

/-- The store stays what it was. -/
theorem store_eq {act : Run σ α} (h : StoreBlind act) (s : RunState σ) :
    (act.result s).2.store = s.store :=
  congrArg (fun r => r.2.store) (h s s.store)

end StoreBlind

theorem storeBlind_describe (host : Host σ) (tools : Toolbox) (workspace : Workspace)
    (essence : String) : StoreBlind (describe host tools workspace essence) := by
  refine .bind (.ofExcept _) fun program => .bind (.machine _) fun r => ?_
  split
  · exact .fail _
  · exact .fail _
  · split
    · split
      · exact .pure _
      · exact .fail _
    · exact .fail _

theorem storeBlind_survey (host : Host σ) (tools : Toolbox) (workspace : Workspace)
    (asked : List (Scope × String)) : StoreBlind (survey host tools workspace asked) := by
  induction asked with
  | nil => exact .pure _
  | cons a rest ih =>
    refine .bind (.attempt (storeBlind_describe host tools workspace a.2)) fun r => ?_
    cases r with
    | error f => exact .pure _
    | ok found => exact .bind ih fun _ => .pure _

/-- What the tool says of an essence is a report. -/
theorem names_describe {host : Host σ} {tools : Toolbox} {workspace : Workspace} {essence : String}
    {found : List (String × String)} {s t : RunState σ}
    (h : (describe host tools workspace essence).result s = (.ok found, t)) :
    (found.map (·.1)).Sublist params := by
  obtain ⟨program, u, -, h⟩ := Run.result_bind_ok.mp h
  obtain ⟨r, v, -, h⟩ := Run.result_bind_ok.mp h
  split at h
  · cases h
  · cases h
  · split at h
    · split at h
      · rename_i hread
        cases h
        exact names_readReport hread
      · cases h
    · cases h

/-! ## Offers to resources -/

/-- An offer is taken where there is a gap. -/
theorem result_addMissing {kind : ContextKind} {scope : Scope} {place : ParamPlace} {name : String}
    (hplace : ParamPlace.inScope? kind scope = some place) (hname : name ∈ params) (value : String)
    {s : RunState σ} (hhas : s.store.Has place) :
    (addMissing kind scope name value).result s =
      (.ok (), { s with store := s.store.fill place name value }) := by
  unfold addMissing Store.fill
  rw [Run.result_bind, Run.result_store]
  dsimp only
  rw [Store.hasParameter_eq hplace hhas (not_builtin hname kind)]
  by_cases hsome : (s.store.param? place name).isSome = true
  · rw [if_pos hsome, if_pos hsome]
    rfl
  · rw [if_neg hsome, if_neg hsome, Store.addParameter_of_has hplace hhas]
    rfl

theorem result_addAllMissing {kind : ContextKind} {scope : Scope} {place : ParamPlace}
    (hplace : ParamPlace.inScope? kind scope = some place) {offers : List (String × String)}
    (hnames : ∀ o ∈ offers, o.1 ∈ params) {s : RunState σ} (hhas : s.store.Has place) :
    (addAllMissing kind scope offers).result s =
      (.ok (), { s with store := s.store.fillAll place offers }) := by
  induction offers generalizing s with
  | nil => rfl
  | cons o rest ih =>
    have hrest := Store.has_fill hhas place o.1 o.2
    rw [addAllMissing, Run.result_bind, result_addMissing hplace (hnames o (.head _)) o.2 hhas]
    dsimp only
    rw [ih (fun o ho => hnames o (.tail _ ho)) hrest]
    rfl

/-- The essences of the resources in some scopes. -/
def essencesIn (s : Store) (scopes : List Scope) : List (Scope × String) :=
  scopes.filterMap fun scope =>
    (s.getParameter .resource scope essenceParam).toOption.map fun essence => (scope, essence)

theorem essencesIn_sublist (s : Store) (scopes : List Scope) :
    ((essencesIn s scopes).map (·.1)).Sublist scopes := by
  induction scopes with
  | nil => exact List.nil_sublist _
  | cons scope rest ih =>
    cases hessence : s.getParameter .resource scope essenceParam with
    | error missing => simpa [essencesIn, hessence, Except.toOption] using ih.cons scope
    | ok essence => simpa [essencesIn, hessence, Except.toOption] using ih.cons_cons scope

/-- The store when each resource has taken what was found on it. -/
def taken (s : Store) (findings : List (Scope × List (String × String))) : Store :=
  findings.foldl
    (fun s f =>
      match ParamPlace.inScope? .resource f.1 with
      | some place => s.fillAll place f.2
      | none => s) s

/-- The scopes of resources that a store has. -/
def Scoped (s : Store) (scopes : List Scope) : Prop :=
  ∀ scope ∈ scopes, ∃ key id, scope = ResourceKey.scope key id ∧ id ∈ s.resourceIds key

/-- The other resources are still there when one has taken something. -/
theorem Scoped.rest_fillAll {s : Store} {scope : Scope} {rest : List Scope}
    (h : Scoped s (scope :: rest)) (place : ParamPlace) (offers : List (String × String)) :
    Scoped (s.fillAll place offers) rest := by
  intro scope hscope
  obtain ⟨key, id, rfl, hid⟩ := h scope (.tail _ hscope)
  exact ⟨key, id, rfl, by rwa [(s.sameListing_fillAll place offers).resources]⟩

/-- A resource without an essence is passed over. -/
theorem result_resources_bare (host : Host σ) (tools : Toolbox) (workspace : Workspace)
    {scope : Scope} (rest : List Scope) {s : RunState σ} {missing : NotFound}
    (h : s.store.getParameter .resource scope essenceParam = .error missing) :
    (resources host tools workspace (scope :: rest)).result s =
      (resources host tools workspace rest).result s := by
  conv => lhs; unfold resources
  rw [Run.result_bind, Run.result_store]
  dsimp only
  rw [h]

/-- A resource with an essence is described, and takes what is found. -/
theorem result_resources_described (host : Host σ) (tools : Toolbox) (workspace : Workspace)
    {key : ResourceKey} {id : ResourceId} (rest : List Scope) {s : RunState σ} {essence : String}
    (hid : id ∈ s.store.resourceIds key)
    (h : s.store.getParameter .resource (key.scope id) essenceParam = .ok essence) :
    (resources host tools workspace (key.scope id :: rest)).result s =
      match (describe host tools workspace essence).result s with
      | (.error f, t) => (.error f, t)
      | (.ok found, t) =>
        let r := (resources host tools workspace rest).result
          { t with store := s.store.fillAll (.resource key id) found }
        (r.1.map (· + 1), r.2) := by
  have hplace : ParamPlace.inScope? .resource (key.scope id) = some (.resource key id) := rfl
  have hdescribed : (resources host tools workspace (key.scope id :: rest)).result s =
      (do
        let found ← describe host tools workspace essence
        addAllMissing .resource (key.scope id) found
        let more ← resources host tools workspace rest
        pure (more + 1) : Run σ Nat).result s := by
    conv => lhs; unfold resources
    unfold describe
    rw [Run.result_bind, Run.result_store]
    dsimp only
    rw [h]
    simp only [Run.result_bind, Run.result_ofExcept]
    cases tools.require tool <;> rfl
  have hstore := (storeBlind_describe host tools workspace essence).store_eq s
  rw [hdescribed, Run.result_bind]
  cases hdescribe : (describe host tools workspace essence).result s with
  | mk outcome t =>
    rw [hdescribe] at hstore
    dsimp only at hstore
    cases outcome with
    | error f => rfl
    | ok found =>
      have hnames : ∀ o ∈ found, o.1 ∈ params := fun o ho =>
        (names_describe hdescribe).subset (List.mem_map_of_mem ho)
      dsimp only
      rw [Run.result_bind, result_addAllMissing hplace hnames
        (show t.store.Has (.resource key id) by rw [hstore]; exact hid), hstore]
      dsimp only
      rw [Run.result_bind]
      rcases (resources host tools workspace rest).result
        { t with store := s.store.fillAll (.resource key id) found } with ⟨_ | _, _⟩ <;> rfl

/-- The survey goes on after an essence that was described. -/
theorem result_survey_cons (host : Host σ) (tools : Toolbox) (workspace : Workspace)
    (scope : Scope) (essence : String) (rest : List (Scope × String)) (s : RunState σ) :
    (survey host tools workspace ((scope, essence) :: rest)).result s =
      match (describe host tools workspace essence).result s with
      | (.error f, t) => (.ok ([], some f), t)
      | (.ok found, t) =>
        let r := (survey host tools workspace rest).result t
        (r.1.map fun more => ((scope, found) :: more.1, more.2), r.2) := by
  rw [survey, Run.result_bind, Run.result_attempt]
  rcases (describe host tools workspace essence).result s with ⟨f | found, t⟩
  · rfl
  · dsimp only
    rw [Run.result_bind]
    rcases (survey host tools workspace rest).result t with ⟨_ | _, _⟩ <;> rfl

/-- What a resource takes is not an essence. -/
theorem essencesIn_fillAll {s : Store} (hmaps : s.ConsistentMaps) {place : ParamPlace}
    (hhas : s.Has place) {scope : Scope} (hplace : ParamPlace.inScope? .resource scope = some place)
    {offers : List (String × String)} (hnames : ∀ o ∈ offers, o.1 ∈ params) (scopes : List Scope) :
    essencesIn (s.fillAll place offers) scopes = essencesIn s scopes := by
  unfold essencesIn
  congr 1
  funext scope'
  rw [Store.getParameter_fillAll hmaps hhas hplace
    (.inr fun o ho => ne_essenceParam (hnames o ho))]

/-- Probing resources asks for their essences, and each resource takes what is found on it. A
fault ends it, and nothing else does. -/
theorem result_resources (host : Host σ) (tools : Toolbox) (workspace : Workspace)
    (scopes : List Scope) (s : RunState σ) (hmaps : s.store.ConsistentMaps)
    (hscopes : Scoped s.store scopes) :
    ∃ findings fault t,
      (survey host tools workspace (essencesIn s.store scopes)).result s =
        (.ok (findings, fault), t) ∧
      (resources host tools workspace scopes).result s =
        ((match fault with
          | none => .ok findings.length
          | some f => .error f), { t with store := taken s.store findings }) := by
  induction scopes generalizing s with
  | nil => exact ⟨[], none, s, rfl, rfl⟩
  | cons scope rest ih =>
    obtain ⟨key, id, rfl, hid⟩ := hscopes _ (.head _)
    cases hessence : s.store.getParameter .resource (key.scope id) essenceParam with
    | error missing =>
      have hnone : essencesIn s.store (key.scope id :: rest) = essencesIn s.store rest := by
        simp [essencesIn, hessence, Except.toOption]
      rw [result_resources_bare host tools workspace rest hessence, hnone]
      exact ih s hmaps fun scope hscope => hscopes scope (.tail _ hscope)
    | ok essence =>
      have hcons : essencesIn s.store (key.scope id :: rest) =
          (key.scope id, essence) :: essencesIn s.store rest := by
        simp [essencesIn, hessence, Except.toOption]
      have hstore := (storeBlind_describe host tools workspace essence).store_eq s
      rw [result_resources_described host tools workspace rest hid hessence, hcons,
        result_survey_cons]
      cases hdescribe : (describe host tools workspace essence).result s with
      | mk outcome t =>
        rw [hdescribe] at hstore
        dsimp only at hstore ⊢
        cases outcome with
        | error f => exact ⟨[], some f, t, rfl, by rw [taken, List.foldl_nil, ← hstore]⟩
        | ok found =>
          have hnames : ∀ o ∈ found, o.1 ∈ params := fun o ho =>
            (names_describe hdescribe).subset (List.mem_map_of_mem ho)
          -- the others are probed with what this resource has taken in the store
          let filled := s.store.fillAll (.resource key id) found
          obtain ⟨findings, fault, u, hsurvey, hrest⟩ :=
            ih { t with store := filled } (hmaps.fillAll _ _) (hscopes.rest_fillAll _ found)
          have hasked : essencesIn filled rest = essencesIn s.store rest :=
            essencesIn_fillAll hmaps (show s.store.Has (.resource key id) from hid)
              (show ParamPlace.inScope? .resource (key.scope id) = _ from rfl) hnames rest
          dsimp only at hsurvey hrest ⊢
          rw [hasked, storeBlind_survey host tools workspace _ t filled] at hsurvey
          cases hmore : (survey host tools workspace (essencesIn s.store rest)).result t with
          | mk outcome v =>
            rw [hmore] at hsurvey
            obtain ⟨rfl, rfl⟩ := Prod.mk.inj hsurvey
            refine ⟨(key.scope id, found) :: findings, fault, v, rfl, ?_⟩
            rw [hrest]
            cases fault <;> rfl

/-- The survey goes through the essences in order, and through all of them unless there is a
fault. -/
theorem asked_survey {host : Host σ} {tools : Toolbox} {workspace : Workspace}
    {asked : List (Scope × String)} {findings : List (Scope × List (String × String))}
    {fault : Option Failure} {s t : RunState σ}
    (h : (survey host tools workspace asked).result s = (.ok (findings, fault), t)) :
    findings.map (·.1) <+: asked.map (·.1) ∧
      (fault = none → findings.map (·.1) = asked.map (·.1)) ∧
      ∀ f ∈ findings, (f.2.map (·.1)).Sublist params := by
  induction asked generalizing s findings with
  | nil =>
    cases h
    exact ⟨List.prefix_rfl, fun _ => rfl, by simp⟩
  | cons a rest ih =>
    obtain ⟨scope, essence⟩ := a
    rw [result_survey_cons] at h
    cases hdescribe : (describe host tools workspace essence).result s with
    | mk outcome u =>
      rw [hdescribe] at h
      cases outcome with
      | error f =>
        cases h
        exact ⟨List.nil_prefix, nofun, by simp⟩
      | ok found =>
        dsimp only at h
        cases hmore : (survey host tools workspace rest).result u with
        | mk outcome v =>
          rw [hmore] at h
          cases outcome with
          | error f => cases h
          | ok more =>
            cases h
            obtain ⟨hfront, hall, hnames⟩ := ih hmore
            refine ⟨?_, fun hnone => ?_, ?_⟩
            · exact (List.prefix_cons_inj scope).mpr hfront
            · rw [List.map_cons, List.map_cons, hall hnone]
            · exact List.forall_mem_cons.mpr ⟨names_describe hdescribe, hnames⟩

/-! ## What resources have taken -/

section Taken

variable {s : Store} {findings : List (Scope × List (String × String))} {key : ResourceKey}
  {id : ResourceId}

theorem scope_inj {key' : ResourceKey} {id' : ResourceId} (h : key.scope id = key'.scope id') :
    key = key' ∧ id = id' := by
  obtain ⟨segment, type, sequence⟩ := key
  obtain ⟨segment', type', sequence'⟩ := key'
  simp only [ResourceKey.scope, Scope.global, Scope.withSegment, Scope.withSequence,
    Scope.withResource, Scope.mk.injEq, Option.some.injEq, Prod.mk.injEq] at h
  obtain ⟨rfl, ⟨rfl, rfl⟩, rfl⟩ := h
  exact ⟨rfl, rfl⟩

/-- What was found on one resource is offered to it, and then the others take theirs. -/
theorem taken_cons (s : Store) (key : ResourceKey) (id : ResourceId)
    (found : List (String × String)) (rest : List (Scope × List (String × String))) :
    taken s ((key.scope id, found) :: rest) = taken (s.fillAll (.resource key id) found) rest := rfl

theorem extends_taken (hmaps : s.ConsistentMaps) (hscoped : Scoped s (findings.map (·.1))) :
    s.Extends (taken s findings) ∧ (taken s findings).ConsistentMaps := by
  induction findings generalizing s with
  | nil => exact ⟨.refl s, hmaps⟩
  | cons f rest ih =>
    obtain ⟨scope, found⟩ := f
    obtain ⟨key, id, rfl, hid⟩ := hscoped _ (.head _)
    rw [taken_cons]
    have hfirst := Store.extends_fillAll hmaps (show s.Has (.resource key id) from hid) nofun nofun
      found
    obtain ⟨hextends, hmaps'⟩ := ih (hmaps.fillAll _ _) (hscoped.rest_fillAll _ found)
    exact ⟨hfirst.trans hextends, hmaps'⟩

/-- A place stays as it is unless something was found for it. -/
theorem param?_taken_ne (hmaps : s.ConsistentMaps) (hscoped : Scoped s (findings.map (·.1)))
    {place : ParamPlace}
    (hplace : ∀ scope ∈ findings.map (·.1), ParamPlace.inScope? .resource scope ≠ some place)
    (name : String) : (taken s findings).param? place name = s.param? place name := by
  induction findings generalizing s with
  | nil => rfl
  | cons f rest ih =>
    obtain ⟨scope, found⟩ := f
    obtain ⟨key, id, rfl, hid⟩ := hscoped _ (.head _)
    have hhas : s.Has (.resource key id) := hid
    have hne : place ≠ .resource key id := by
      rintro rfl
      exact hplace _ (.head _) rfl
    rw [taken_cons, ih (hmaps.fillAll _ _) (hscoped.rest_fillAll _ found)
      fun scope hscope => hplace scope (.tail _ hscope)]
    exact Store.param?_fillAll_ne hmaps hhas hne name

/-- A resource keeps what it has, and has what was found on it besides. -/
theorem param?_taken (hmaps : s.ConsistentMaps) (hscoped : Scoped s (findings.map (·.1)))
    (honce : (findings.map (·.1)).Nodup) {found : List (String × String)}
    (hfound : (key.scope id, found) ∈ findings) (name : String) :
    (taken s findings).param? (.resource key id) name =
      (s.param? (.resource key id) name).or ((OrderedMap.find name found).map .keep) := by
  induction findings generalizing s with
  | nil => cases hfound
  | cons f rest ih =>
    obtain ⟨scope, found'⟩ := f
    obtain ⟨key', id', rfl, hid'⟩ := hscoped _ (.head _)
    have hhas : s.Has (.resource key' id') := hid'
    have hrest : Scoped (s.fillAll (.resource key' id') found') (rest.map (·.1)) :=
      hscoped.rest_fillAll _ found'
    obtain ⟨hnot, honce⟩ := List.nodup_cons.mp honce
    rw [taken_cons]
    obtain heq | hmem := List.mem_cons.mp hfound
    · obtain ⟨hscope, rfl⟩ := Prod.mk.inj heq
      obtain ⟨rfl, rfl⟩ := scope_inj hscope
      rw [param?_taken_ne (hmaps.fillAll _ _) hrest]
      · exact Store.param?_fillAll_self hmaps hhas name
      · intro scope hscope hplace
        obtain ⟨key', id', rfl, -⟩ := hrest scope hscope
        cases hplace
        exact hnot hscope
    · have hne : ParamPlace.resource key id ≠ .resource key' id' := by
        intro heq
        cases heq
        exact hnot (List.mem_map.mpr ⟨_, hmem, rfl⟩)
      rw [ih (hmaps.fillAll _ _) hrest honce hmem, Store.param?_fillAll_ne hmaps hhas hne]

end Taken

/-! ## What sequences take over -/

/-- What the first resource of a sequence has under a name. -/
def offered? (s : Store) (t : SequenceType) (id : SequenceId) (name : String) : Option String :=
  (firstResource? s t id).bind fun scope => (s.getParameter .resource scope name).toOption

/-- What is offered to a sequence. -/
def offers (s : Store) (t : SequenceType) (id : SequenceId) : List (String × String) :=
  params.filterMap fun name => (offered? s t id name).map fun value => (name, value)

/-- The store when each of some sequences has taken over what it is offered. -/
def inherited (s : Store) (pairs : List (SequenceType × SequenceId)) : Store :=
  pairs.foldl (fun s q => s.fillAll (.sequence q.1 q.2) (offers s q.1 q.2)) s

section Inherited

variable {s : Store} {t : SequenceType} {id : SequenceId} {pairs : List (SequenceType × SequenceId)}

theorem firstResource?_of_sameIds {s' : Store} (h : s.SameIds s') (t : SequenceType)
    (id : SequenceId) : firstResource? s' t id = firstResource? s t id := by
  simp only [firstResource?, h.segments, h.resources]

/-- What is offered does not depend on what sequences have. -/
theorem offered?_fillAll (hmaps : s.ConsistentMaps) (hid : id ∈ s.sequenceIds t)
    (taken : List (String × String)) (t' : SequenceType) (id' : SequenceId) (name : String) :
    offered? (s.fillAll (.sequence t id) taken) t' id' name = offered? s t' id' name := by
  have hplace : ParamPlace.inScope? .sequence (Scope.global.withSequence t id) =
      some (.sequence t id) := rfl
  unfold offered?
  rw [firstResource?_of_sameIds (s.sameListing_fillAll _ _).toSameIds]
  simp only [Store.getParameter_fillAll hmaps (show s.Has (.sequence t id) from hid) hplace
    (.inl (show ContextKind.resource ≠ .sequence by decide))]

/-- A sequence takes over, name by name, what a resource has. -/
theorem result_inheritFrom (resource : Scope) {names : List String}
    (hnames : ∀ n ∈ names, n ∈ params) {r : RunState σ} (hmaps : r.store.ConsistentMaps)
    (hid : id ∈ r.store.sequenceIds t) :
    (inheritFrom (Scope.global.withSequence t id) resource names).result r =
      (.ok (), { r with
        store := r.store.fillAll (.sequence t id) (names.filterMap fun name =>
          (r.store.getParameter .resource resource name).toOption.map fun value =>
            (name, value)) }) := by
  have hplace : ParamPlace.inScope? .sequence (Scope.global.withSequence t id) =
      some (.sequence t id) := rfl
  induction names generalizing r with
  | nil => rfl
  | cons name rest ih =>
    unfold inheritFrom
    rw [Run.result_bind, Run.result_store]
    dsimp only
    cases hvalue : r.store.getParameter .resource resource name with
    | error missing =>
      rw [List.filterMap_cons_none (by rw [hvalue]; rfl)]
      exact ih (fun n hn => hnames n (.tail _ hn)) hmaps hid
    | ok value =>
      rw [List.filterMap_cons_some (by rw [hvalue]; rfl), Store.fillAll_cons, Run.result_bind,
        result_addMissing hplace (hnames name (.head _)) value hid]
      have hsame := r.store.sameListing_fill (.sequence t id) name value
      -- the resource is read in the same way after the sequence has taken something
      have hread (n : String) : (r.store.fill (.sequence t id) name value).getParameter .resource
          resource n = r.store.getParameter .resource resource n := by
        show (r.store.fillAll (.sequence t id) [(name, value)]).getParameter _ resource n = _
        exact Store.getParameter_fillAll hmaps hid hplace
          (.inl (show ContextKind.resource ≠ .sequence by decide))
      dsimp only
      rw [ih (fun n hn => hnames n (.tail _ hn)) (hmaps.fill _ _ _) (by rwa [hsame.sequences])]
      simp only [hread]

theorem result_inheritEach (pairs : List (SequenceType × SequenceId)) (r : RunState σ)
    (hmaps : r.store.ConsistentMaps) (hpairs : ∀ q ∈ pairs, q.2 ∈ r.store.sequenceIds q.1) :
    (inheritEach pairs).result r = (.ok (), { r with store := inherited r.store pairs }) := by
  induction pairs generalizing r with
  | nil => rfl
  | cons q rest ih =>
    obtain ⟨t, id⟩ := q
    have hid : id ∈ r.store.sequenceIds t := hpairs (t, id) (.head _)
    have hsame := r.store.sameListing_fillAll (.sequence t id) (offers r.store t id)
    have hrest := ih { r with store := r.store.fillAll (.sequence t id) (offers r.store t id) }
      (hmaps.fillAll _ _) fun q hq => by
        rw [hsame.sequences]
        exact hpairs q (.tail _ hq)
    unfold inheritEach
    rw [Run.result_bind, Run.result_store]
    dsimp only
    cases hfirst : firstResource? r.store t id with
    | none =>
      have hnone : offers r.store t id = [] := by simp [offers, offered?, hfirst]
      rw [hnone] at hrest
      show (inheritEach rest).result r = (.ok (), { r with
        store := inherited (r.store.fillAll (.sequence t id) (offers r.store t id)) rest })
      rw [hnone]
      exact hrest
    | some resource =>
      have hoffers : offers r.store t id = params.filterMap fun name =>
          (r.store.getParameter .resource resource name).toOption.map fun value =>
            (name, value) := by
        simp [offers, offered?, hfirst]
      dsimp only
      rw [Run.result_bind, result_inheritFrom resource (fun _ hn => hn) hmaps hid, ← hoffers]
      exact hrest

/-- In a list that pairs names with values, a name has its own value. -/
theorem find_filterMap (f : String → Option String) (names : List String) (name : String) :
    OrderedMap.find name (names.filterMap fun n => (f n).map fun value => (n, value)) =
      if name ∈ names then f name else none := by
  induction names with
  | nil => rfl
  | cons n rest ih =>
    cases hn : f n with
    | none =>
      rw [List.filterMap_cons_none (by rw [hn]; rfl), ih]
      by_cases hname : name = n <;> simp [hname, hn]
    | some value =>
      rw [List.filterMap_cons_some (by rw [hn]; rfl), OrderedMap.find, ih]
      by_cases hname : n = name
      · simp [← hname, hn]
      · simp [hname, Ne.symm hname]

theorem find_offers (s : Store) (t : SequenceType) (id : SequenceId) {name : String}
    (hname : name ∈ params) : OrderedMap.find name (offers s t id) = offered? s t id name := by
  rw [offers, find_filterMap, if_pos hname]

/-- Each of some sequences has taken what it is offered, and nothing else has changed. -/
structure TakenOver (s s' : Store) (pairs : List (SequenceType × SequenceId)) : Prop where
  keeps : s.Extends s'
  maps : s'.ConsistentMaps
  offered : ∀ t id name, offered? s' t id name = offered? s t id name
  resource : ∀ key id name, s'.param? (.resource key id) name = s.param? (.resource key id) name
  sequence : ∀ t id name, name ∈ params → s'.param? (.sequence t id) name =
    if (t, id) ∈ pairs then (s.param? (.sequence t id) name).or ((offered? s t id name).map .keep)
    else s.param? (.sequence t id) name

theorem takenOver_inherited (hmaps : s.ConsistentMaps)
    (hpairs : ∀ q ∈ pairs, q.2 ∈ s.sequenceIds q.1) : TakenOver s (inherited s pairs) pairs := by
  induction pairs generalizing s with
  | nil => exact ⟨.refl s, hmaps, fun _ _ _ => rfl, fun _ _ _ => rfl, fun _ _ _ _ => rfl⟩
  | cons q rest ih =>
    obtain ⟨t, id⟩ := q
    have hid : id ∈ s.sequenceIds t := hpairs (t, id) (.head _)
    have hhas : s.Has (.sequence t id) := hid
    have hfirst := Store.extends_fillAll hmaps hhas nofun nofun (offers s t id)
    have hrest : TakenOver (s.fillAll (.sequence t id) (offers s t id)) _ rest :=
      ih (hmaps.fillAll _ _) fun q hq => by
        rw [hfirst.listing.sequences]
        exact hpairs q (.tail _ hq)
    refine ⟨hfirst.trans hrest.keeps, hrest.maps, fun t' id' name => ?_, fun key id' name => ?_,
      fun t' id' name hname => ?_⟩
    · exact (hrest.offered t' id' name).trans (offered?_fillAll hmaps hid _ t' id' name)
    · have hne : ParamPlace.resource key id' ≠ .sequence t id := nofun
      exact (hrest.resource key id' name).trans (Store.param?_fillAll_ne hmaps hhas hne name)
    · refine (hrest.sequence t' id' name hname).trans ?_
      rw [offered?_fillAll hmaps hid]
      by_cases hsame : ParamPlace.sequence t' id' = .sequence t id
      · cases hsame
        rw [Store.param?_fillAll_self hmaps hhas, find_offers s t id hname,
          if_pos List.mem_cons_self]
        -- what is offered twice is taken once
        cases s.param? (.sequence t id) name <;> cases offered? s t id name <;> simp
      · rw [Store.param?_fillAll_ne hmaps hhas hsame]
        have hne : (t', id') ≠ (t, id) := by
          rintro ⟨⟩
          exact hsame rfl
        simp [hne]

/-- A sequence that has all that it is offered takes nothing. -/
theorem inherited_eq_self
    (h : ∀ q ∈ pairs, ∀ name ∈ params, (offered? s q.1 q.2 name).isSome = true →
      (s.param? (.sequence q.1 q.2) name).isSome = true) : inherited s pairs = s := by
  induction pairs with
  | nil => rfl
  | cons q rest ih =>
    have hq : s.fillAll (.sequence q.1 q.2) (offers s q.1 q.2) = s := by
      apply Store.fillAll_eq_self
      intro o ho
      obtain ⟨name, hname, hvalue⟩ := List.mem_filterMap.mp ho
      obtain ⟨value, hoffered, rfl⟩ := Option.map_eq_some_iff.mp hvalue
      exact h q (.head _) name hname (by rw [hoffered]; rfl)
    show inherited (s.fillAll (.sequence q.1 q.2) (offers s q.1 q.2)) rest = s
    rw [hq]
    exact ih fun q hq => h q (.tail _ hq)

end Inherited

/-! ## The resources of a store -/

section Hierarchy

variable {s : Store} {key : ResourceKey} {id : ResourceId}

theorem mem_sequencePairs {t : SequenceType} {id : SequenceId} :
    (t, id) ∈ s.sequencePairs ↔ id ∈ s.sequenceIds t := by
  have hall : t ∈ SequenceType.all := by cases t <;> decide
  simp [Store.sequencePairs, hall]

theorem scoped_resourceScopes (s : Store) : Scoped s (resourceScopes s) := by
  intro scope hscope
  obtain ⟨segment, -, hscope⟩ := List.mem_flatMap.mp hscope
  obtain ⟨q, -, hscope⟩ := List.mem_flatMap.mp hscope
  obtain ⟨id, hid, rfl⟩ := List.mem_map.mp hscope
  exact ⟨⟨segment, q.1, q.2⟩, id, rfl, hid⟩

/-- Every resource is gone through. -/
theorem mem_resourceScopes (hw : s.WellFormed) (hid : id ∈ s.resourceIds key) :
    key.scope id ∈ resourceScopes s := by
  obtain ⟨e, he, -⟩ := List.mem_map.mp hid
  obtain ⟨hsegment, hsequence⟩ :=
    hw.registered key (List.mem_map_of_mem (hw.mem_entries_of_mem he))
  refine List.mem_flatMap.mpr ⟨key.segment, hsegment, List.mem_flatMap.mpr
    ⟨(key.type, key.sequence), mem_sequencePairs.mpr hsequence, List.mem_map.mpr ⟨id, hid, rfl⟩⟩⟩

/-- No resource is gone through twice. -/
theorem nodup_resourceScopes (hw : s.WellFormed) : (resourceScopes s).Nodup := by
  have hpairs : s.sequencePairs.Nodup := by
    refine Store.nodup_flatMap_of_unique (by decide) (fun t _ => ?_) fun a b y ha hb => ?_
    · exact (hw.sequences t).map fun _ _ h => (Prod.mk.inj h).2
    · obtain ⟨_, -, rfl⟩ := List.mem_map.mp ha
      obtain ⟨_, -, heq⟩ := List.mem_map.mp hb
      exact (Prod.mk.inj heq).1.symm
  have hscopes (key : ResourceKey) : ((s.resourceIds key).map key.scope).Nodup :=
    (hw.nodup_resourceIds key).map fun _ _ h => (scope_inj h).2
  refine Store.nodup_flatMap_of_unique hw.segments (fun segment _ => ?_) fun a b y ha hb => ?_
  · refine Store.nodup_flatMap_of_unique hpairs (fun q _ => hscopes ⟨segment, q.1, q.2⟩)
      fun a b y ha hb => ?_
    obtain ⟨id, -, rfl⟩ := List.mem_map.mp ha
    obtain ⟨id', -, heq⟩ := List.mem_map.mp hb
    have hscope : ResourceKey.scope ⟨segment, b.1, b.2⟩ id' =
        ResourceKey.scope ⟨segment, a.1, a.2⟩ id := heq
    have hkey := (scope_inj hscope).1
    exact Prod.ext (congrArg ResourceKey.type hkey).symm (congrArg ResourceKey.sequence hkey).symm
  · obtain ⟨q, -, ha⟩ := List.mem_flatMap.mp ha
    obtain ⟨id, -, rfl⟩ := List.mem_map.mp ha
    obtain ⟨q', -, hb⟩ := List.mem_flatMap.mp hb
    obtain ⟨id', -, heq⟩ := List.mem_map.mp hb
    have hscope : ResourceKey.scope ⟨b, q'.1, q'.2⟩ id' = ResourceKey.scope ⟨a, q.1, q.2⟩ id := heq
    have hkey := (scope_inj hscope).1
    exact (congrArg ResourceKey.segment hkey).symm

/-- The first resource of a sequence is the first one across all segments. -/
theorem firstResource?_eq {t : SequenceType} {id : SequenceId} {first : Entry ResourceId}
    {rest : List (Entry ResourceId)} (h : s.resourcesAcross t id = first :: rest) :
    ∃ segment, firstResource? s t id = some (ResourceKey.scope ⟨segment, t, id⟩ first.id) ∧
      (s.resourceEntries ⟨segment, t, id⟩).head? = some first := by
  unfold Store.resourcesAcross at h
  unfold firstResource?
  generalize s.segments = segments at h ⊢
  induction segments with
  | nil => cases h
  | cons segment segments ih =>
    rw [List.flatMap_cons] at h
    rw [List.findSome?_cons]
    cases hentries : s.resourceEntries ⟨segment, t, id⟩ with
    | nil =>
      rw [hentries, List.nil_append] at h
      rw [Store.resourceIds, hentries]
      exact ih h
    | cons e es =>
      rw [hentries, List.cons_append] at h
      obtain ⟨rfl, -⟩ := List.cons.inj h
      refine ⟨segment, ?_, by rw [hentries]; rfl⟩
      rw [Store.resourceIds, hentries]
      rfl

/-- What a sequence is offered is what the first of its resources has. -/
theorem offered?_of_first {t : SequenceType} {id : SequenceId} {first : Entry ResourceId}
    {rest : List (Entry ResourceId)} (h : s.resourcesAcross t id = first :: rest) {name : String}
    (hname : name ∈ params) : offered? s t id name = first.params.value? name := by
  obtain ⟨segment, hfirst, hhead⟩ := firstResource?_eq h
  obtain ⟨es, hentries⟩ := List.head?_eq_some_iff.mp hhead
  have hhas : s.Has (.resource ⟨segment, t, id⟩ first.id) := by
    show first.id ∈ (s.resourceEntries ⟨segment, t, id⟩).map (·.id)
    rw [hentries]
    exact List.mem_cons_self
  have hplace : ParamPlace.inScope? .resource (ResourceKey.scope ⟨segment, t, id⟩ first.id) =
      some (.resource ⟨segment, t, id⟩ first.id) := rfl
  rw [offered?, hfirst, Option.bind_some,
    Store.toOption_getParameter hplace hhas (not_builtin hname .resource)]
  simp [Store.param?, Store.paramsAt, Store.mapsOf, hentries, ParamMap.value?]

end Hierarchy

/-! ## The main result -/

/-- What a store has gained once probing has succeeded. -/
structure Filled (s : Store) (findings : List (Scope × List (String × String))) (t : Store) :
    Prop where
  /-- No resource is asked about twice. -/
  once : (findings.map (·.1)).Nodup
  names : ∀ f ∈ findings, (f.2.map (·.1)).Sublist params
  /-- A resource with an essence has all that was found on it, unless it had it before. -/
  resources : ∀ (key : ResourceKey) id essence, id ∈ s.resourceIds key →
    s.getParameter .resource (key.scope id) essenceParam = .ok essence →
    ∃ found, (key.scope id, found) ∈ findings ∧ ∀ e ∈ found,
      t.param? (.resource key id) e.1 = (s.param? (.resource key id) e.1).or (some (.keep e.2))
  /-- A sequence has what the first of its resources has, unless it had it before. -/
  sequences : ∀ type id first rest, id ∈ s.sequenceIds type →
    t.resourcesAcross type id = first :: rest → ∀ name ∈ params,
      t.param? (.sequence type id) name =
        (s.param? (.sequence type id) name).or ((first.params.value? name).map .keep)
  /-- There is nothing more to take over. -/
  again : ∀ {σ : Type} (r : RunState σ), r.store = t → inherit.result r = (.ok (), r)

theorem result_inherit (r : RunState σ) (hmaps : r.store.ConsistentMaps) :
    inherit.result r =
      (.ok (), { r with store := inherited r.store r.store.sequencePairs }) := by
  unfold inherit
  rw [Run.result_bind, Run.result_store]
  exact result_inheritEach _ r hmaps fun q hq => mem_sequencePairs.mp hq

/-- Taking and taking over leaves no gap that could be filled. -/
theorem filled_inherited {s : Store} {findings : List (Scope × List (String × String))}
    (hw : s.WellFormed) (hmaps : s.ConsistentMaps)
    (hasked : findings.map (·.1) = (essencesIn s (resourceScopes s)).map (·.1))
    (hnames : ∀ f ∈ findings, (f.2.map (·.1)).Sublist params) :
    Filled s findings (inherited (taken s findings) (taken s findings).sequencePairs) := by
  have hsub : (findings.map (·.1)).Sublist (resourceScopes s) := by
    rw [hasked]
    exact essencesIn_sublist s (resourceScopes s)
  have hscoped : Scoped s (findings.map (·.1)) := fun scope hscope =>
    scoped_resourceScopes s scope (hsub.subset hscope)
  have honce : (findings.map (·.1)).Nodup := (nodup_resourceScopes hw).sublist hsub
  obtain ⟨hextends, hmaps'⟩ := extends_taken hmaps hscoped
  have hover := takenOver_inherited hmaps' fun q hq => mem_sequencePairs.mp hq
  have hsequence (type : SequenceType) (id : SequenceId) (name : String) :
      (taken s findings).param? (.sequence type id) name = s.param? (.sequence type id) name := by
    apply param?_taken_ne hmaps hscoped
    intro scope hscope hplace
    cases ParamPlace.kind_of_inScope? hplace
  refine ⟨honce, hnames, ?_, ?_, ?_⟩
  · intro key id essence hid hessence
    have hmem : (key.scope id, essence) ∈ essencesIn s (resourceScopes s) := by
      refine List.mem_filterMap.mpr ⟨key.scope id, mem_resourceScopes hw hid, ?_⟩
      rw [hessence]
      rfl
    have hfound : key.scope id ∈ findings.map (·.1) := by
      rw [hasked]
      exact List.mem_map.mpr ⟨_, hmem, rfl⟩
    obtain ⟨⟨scope, found⟩, hfinding, rfl⟩ := List.mem_map.mp hfound
    refine ⟨found, hfinding, fun e he => ?_⟩
    have hdistinct : (found.map (·.1)).Nodup :=
      List.Nodup.sublist (hnames _ hfinding) (by decide)
    have hvalue : OrderedMap.find e.1 found = some e.2 :=
      (OrderedMap.get?_eq_some (m := ⟨found⟩) hdistinct).mpr he
    rw [hover.resource, param?_taken hmaps hscoped honce hfinding, hvalue]
    rfl
  · intro type id first rest hid hacross name hname
    have hpair : (type, id) ∈ (taken s findings).sequencePairs := by
      rw [mem_sequencePairs, hextends.listing.sequences]
      exact hid
    rw [hover.sequence type id name hname, if_pos hpair, hsequence, ← hover.offered,
      offered?_of_first hacross hname]
  · intro σ r hr
    have hagain : inherited r.store r.store.sequencePairs = r.store := by
      rw [hr, hover.keeps.listing.sequencePairs]
      apply inherited_eq_self
      intro q hq name hname hoffered
      rw [hover.offered] at hoffered
      rw [hover.sequence q.1 q.2 name hname, if_pos hq]
      simp [hoffered]
    rw [result_inherit r (by rw [hr]; exact hover.maps), hagain]

/-- Probing goes through the essences of all resources in order, and fails exactly if there is
a fault. Whether it fails or not, every parameter that there was keeps its value, and nothing
but sequences and resources has more than before. If it succeeds, every resource with an
essence has what was found on it and every sequence what the first of its resources has, each
unless it had a value of its own, and taking over again changes nothing. -/
theorem populate_fills (host : Host σ) (tools : Toolbox) (workspace : Workspace)
    (calls : List Store.Call) (r : RunState σ) :
    let s := { r with store := Store.empty.run calls }
    let after := (populate host tools workspace).result s
    ∃ findings fault t,
      (survey host tools workspace (essencesIn s.store (resourceScopes s.store))).result s =
        (.ok (findings, fault), t) ∧
      after.2 = { t with store := after.2.store } ∧
      s.store.Extends after.2.store ∧
      match fault with
      | some f => after.1 = .error f
      | none => after.1 = .ok findings.length ∧ Filled s.store findings after.2.store := by
  intro s after
  have hw := (Store.run_represented calls).1
  have hmaps := Store.run_consistentMaps calls
  obtain ⟨findings, fault, t, hsurvey, hresources⟩ :=
    result_resources host tools workspace (resourceScopes s.store) s hmaps
      (scoped_resourceScopes s.store)
  obtain ⟨hfront, hall, hnames⟩ := asked_survey hsurvey
  have hscoped : Scoped s.store (findings.map (·.1)) := fun scope hscope =>
    scoped_resourceScopes s.store scope
      ((essencesIn_sublist s.store (resourceScopes s.store)).subset (hfront.subset hscope))
  obtain ⟨hextends, hmaps'⟩ := extends_taken hmaps hscoped
  refine ⟨findings, fault, t, hsurvey, ?_⟩
  have hafter : after = (populate host tools workspace).result s := rfl
  unfold populate at hafter
  rw [Run.result_bind, Run.result_store] at hafter
  dsimp only at hafter
  rw [Run.result_bind, hresources] at hafter
  cases fault with
  | some f =>
    rw [hafter]
    exact ⟨rfl, hextends, rfl⟩
  | none =>
    dsimp only at hafter
    rw [Run.result_bind, result_inherit _ hmaps'] at hafter
    have hover := takenOver_inherited hmaps' fun q hq => mem_sequencePairs.mp hq
    rw [hafter]
    exact ⟨rfl, hextends.trans hover.keeps, rfl, filled_inherited hw hmaps (hall rfl) hnames⟩

end MediaPipeline.Probe
