import MediaPipeline.Audio
import MediaPipeline.Proofs.ParameterScans

/-!
# Agreement of resources

The check that the resources of a sequence agree compares each of them with the first one,
name by name. `checkHomogeneous_eq_ok` says that this finds out whether any two of them agree,
and `checkHomogeneous_eq_error` which difference is reported. In terms of the calls that built
a store, the resources of a sequence are those that were ever added for it, in whatever
segments, and their values the ones that were inserted last (`homogeneous_run`).
-/

namespace MediaPipeline

/-! ## Reports -/

/-- What a resource reports: under each name a value, or that it has none. -/
structure Report where
  id : ResourceId
  value : String → Option String

/-- What an entry reports. -/
def Entry.report (e : Entry ResourceId) : Report := ⟨e.id, e.params.value?⟩

/-- Any two of some resources report the same under each of some names. -/
def Agree (names : List String) (reports : List Report) : Prop :=
  ∀ name ∈ names, ∀ a ∈ reports, ∀ b ∈ reports, a.value name = b.value name

/-- The mismatch of two reports under a name. -/
def Mismatch.between (name : String) (first other : Report) : Mismatch :=
  ⟨name, first.id, first.value name, other.id, other.value name⟩

/-- The first name under which not all resources agree, with the first resource and the first
one that differs from it. -/
structure FirstDifference (names : List String) (reports : List Report) (name : String)
    (first other : Report) : Prop where
  earlier : ∃ before after, names = before ++ name :: after ∧ Agree before reports
  between : ∃ alike rest, reports = first :: (alike ++ other :: rest) ∧
    ∀ r ∈ alike, r.value name = first.value name
  differs : other.value name ≠ first.value name

section Reports

variable {names : List String} {reports : List Report} {first : Report} {rest : List Report}

/-- It is enough to compare with the first one. -/
theorem agree_cons_iff :
    Agree names (first :: rest) ↔
      ∀ name ∈ names, ∀ r ∈ rest, r.value name = first.value name := by
  constructor
  · intro h name hname r hr
    exact h name hname r (List.mem_cons_of_mem _ hr) first List.mem_cons_self
  · intro h name hname a ha b hb
    have hfirst : ∀ r ∈ first :: rest, r.value name = first.value name :=
      List.forall_mem_cons.mpr ⟨rfl, h name hname⟩
    exact (hfirst a ha).trans (hfirst b hb).symm

/-- The first mismatch under one name. -/
def mismatch? (first : Report) (rest : List Report) (name : String) : Option Mismatch :=
  (rest.find? fun r => r.value name ≠ first.value name).map (.between name first)

theorem mismatch?_eq_none {name : String} :
    mismatch? first rest name = none ↔ ∀ r ∈ rest, r.value name = first.value name := by
  simp [mismatch?]

theorem mismatch?_eq_some {name : String} {m : Mismatch} :
    mismatch? first rest name = some m ↔ ∃ alike other later, rest = alike ++ other :: later ∧
      (∀ r ∈ alike, r.value name = first.value name) ∧
      other.value name ≠ first.value name ∧ m = .between name first other := by
  simp only [mismatch?, Option.map_eq_some_iff, List.find?_eq_some_iff_append, decide_eq_true_eq,
    Bool.not_eq_true', decide_eq_false_iff_not, not_not]
  constructor
  · rintro ⟨other, ⟨hdiffers, alike, later, rfl, halike⟩, rfl⟩
    exact ⟨alike, other, later, rfl, halike, hdiffers, rfl⟩
  · rintro ⟨alike, other, later, rfl, halike, hdiffers, rfl⟩
    exact ⟨other, ⟨hdiffers, alike, later, rfl, halike⟩, rfl⟩

theorem findSome?_mismatch_eq_none :
    names.findSome? (mismatch? first rest) = none ↔ Agree names (first :: rest) := by
  simp only [List.findSome?_eq_none_iff, mismatch?_eq_none, agree_cons_iff]

theorem findSome?_mismatch_eq_some {m : Mismatch} :
    names.findSome? (mismatch? first rest) = some m ↔
      ∃ name other, FirstDifference names (first :: rest) name first other ∧
        m = .between name first other := by
  rw [List.findSome?_eq_some_iff]
  constructor
  · rintro ⟨before, name, after, hnames, hm, hbefore⟩
    obtain ⟨alike, other, later, hrest, halike, hdiffers, rfl⟩ := mismatch?_eq_some.mp hm
    have hagree : Agree before (first :: rest) :=
      agree_cons_iff.mpr fun n hn => mismatch?_eq_none.mp (hbefore n hn)
    exact ⟨name, other, ⟨⟨before, after, hnames, hagree⟩, ⟨alike, later, by rw [hrest], halike⟩,
      hdiffers⟩, rfl⟩
  · rintro ⟨name, other, ⟨⟨before, after, hnames, hagree⟩, ⟨alike, later, hrest, halike⟩,
      hdiffers⟩, rfl⟩
    have hm : mismatch? first rest name = some (.between name first other) :=
      mismatch?_eq_some.mpr ⟨alike, other, later, (List.cons.inj hrest).2, halike, hdiffers, rfl⟩
    exact ⟨before, name, after, hnames, hm, fun n hn =>
      mismatch?_eq_none.mpr (agree_cons_iff.mp hagree n hn)⟩

end Reports

/-! ## The check of a store -/

namespace Store

variable {s : Store} {t : SequenceType} {id : SequenceId} {names : List String}

/-- What the resources of a sequence report, in segment order. -/
def reports (s : Store) (t : SequenceType) (id : SequenceId) : List Report :=
  (s.resourcesAcross t id).map Entry.report

theorem firstMismatch?_eq (first : Entry ResourceId) (rest : List (Entry ResourceId)) :
    firstMismatch? first rest = mismatch? first.report (rest.map Entry.report) := by
  funext name
  rw [firstMismatch?, mismatch?, List.find?_map, Option.map_map]
  rfl

/-- The check speaks of what the resources report. -/
theorem checkHomogeneous_eq (s : Store) (t : SequenceType) (id : SequenceId)
    (names : List String) :
    s.checkHomogeneous t id names =
      match s.reports t id with
      | [] => .ok ()
      | first :: rest =>
        match names.findSome? (mismatch? first rest) with
        | some mismatch => .error (.homogeneity id mismatch)
        | none => .ok () := by
  rw [checkHomogeneous, reports]
  cases s.resourcesAcross t id with
  | nil => rfl
  | cons first rest =>
    dsimp only
    rw [firstMismatch?_eq]
    rfl

theorem checkHomogeneous_eq_ok :
    s.checkHomogeneous t id names = .ok () ↔ Agree names (s.reports t id) := by
  rw [checkHomogeneous_eq]
  cases s.reports t id with
  | nil => exact iff_of_true rfl fun name _ a ha => nomatch ha
  | cons first rest =>
    rw [← findSome?_mismatch_eq_none]
    dsimp only
    split
    · next m hm =>
      rw [hm]
      exact iff_of_false (fun h => nomatch h) fun h => nomatch h
    · next hnone => exact iff_of_true rfl hnone

theorem checkHomogeneous_eq_error {cause : Cause} :
    s.checkHomogeneous t id names = .error cause ↔
      ∃ name first other, FirstDifference names (s.reports t id) name first other ∧
        cause = .homogeneity id (.between name first other) := by
  rw [checkHomogeneous_eq]
  cases s.reports t id with
  | nil =>
    refine iff_of_false (fun h => nomatch h) ?_
    rintro ⟨name, first, other, ⟨-, ⟨alike, rest, hnil, -⟩, -⟩, -⟩
    cases hnil
  | cons first rest =>
    constructor
    · intro h
      dsimp only at h
      split at h
      · next m hm =>
        obtain ⟨name, other, hdifference, rfl⟩ := findSome?_mismatch_eq_some.mp hm
        exact ⟨name, first, other, hdifference, (Except.error.inj h).symm⟩
      · cases h
    · rintro ⟨name, first', other, hdifference, rfl⟩
      obtain ⟨alike, later, hcons, -⟩ := hdifference.between
      obtain rfl : first = first' := (List.cons.inj hcons).1
      dsimp only
      rw [findSome?_mismatch_eq_some.mpr ⟨name, other, hdifference, rfl⟩]

end Store

/-- A check of each of several things succeeds if each of them passes. -/
theorem forM_eq_ok {α ε : Type} {f : α → Except ε PUnit} {l : List α} :
    l.forM f = .ok ⟨⟩ ↔ ∀ a ∈ l, f a = .ok ⟨⟩ := by
  induction l with
  | nil => exact iff_of_true rfl fun a ha => nomatch ha
  | cons a rest ih =>
    rw [List.forall_mem_cons, ← ih]
    show (f a >>= fun _ => rest.forM f) = .ok ⟨⟩ ↔ _
    cases f a with
    | error e => exact iff_of_false (fun h => nomatch h) fun h => nomatch h.1
    | ok u => exact (and_iff_right rfl).symm

/-- The resources of each audio sequence agree on what has to be the same in one track. -/
def Store.AudioAgrees (s : Store) : Prop :=
  ∀ id ∈ s.sequenceIds .audio, Agree audioParams (s.reports .audio id)

theorem checkAudioHomogeneity_eq_ok {s : Store} :
    checkAudioHomogeneity s = .ok () ↔ s.AudioAgrees := by
  simp only [checkAudioHomogeneity, forM_eq_ok, Store.checkHomogeneous_eq_ok, Store.AudioAgrees]

/-! ## In terms of calls -/

namespace Store

/-- What a resource that was added reports: the value that was inserted last. -/
def reportOf (calls : List Call) (key : ResourceKey) (id : ResourceId) : Report where
  id := id
  value name := (lastValue? name (empty.insertions (.resource key id) calls)).map (·.value)

/-- The resources that were added for a sequence, by segment and then by first addition. -/
def membersOf (calls : List Call) (t : SequenceType) (sequence : SequenceId) :
    List (ResourceKey × ResourceId) :=
  (Registry.ofCalls calls).segments.flatMap fun segment =>
    (resourcesAdded calls ⟨segment, t, sequence⟩).map (⟨segment, t, sequence⟩, ·)

variable {calls : List Call} {t : SequenceType} {sequence : SequenceId} {names : List String}

theorem mem_membersOf {key : ResourceKey} {id : ResourceId} :
    (key, id) ∈ membersOf calls t sequence ↔
      (key, id) ∈ empty.additions calls ∧ key.type = t ∧ key.sequence = sequence := by
  simp only [membersOf, List.mem_flatMap, List.mem_map, Prod.mk.injEq, mem_resourcesAdded]
  constructor
  · rintro ⟨segment, -, id', hadded, rfl, rfl⟩
    exact ⟨hadded, rfl, rfl⟩
  · rintro ⟨hadded, rfl, rfl⟩
    exact ⟨key.segment, (registered_of_added hadded).1, id, hadded, rfl, rfl⟩

/-- The store reports for a sequence what was inserted for the resources that were added. -/
theorem reports_run (calls : List Call) (t : SequenceType) (sequence : SequenceId) :
    (empty.run calls).reports t sequence =
      (membersOf calls t sequence).map fun r => reportOf calls r.1 r.2 := by
  rw [reports, resourcesAcross, membersOf, List.map_flatMap, List.map_flatMap, ← registry_run]
  refine List.flatMap_congr fun segment _ => ?_
  rw [List.map_map, ← resourceIds_run, resourceIds, List.map_map]
  refine List.map_congr_left fun e he => ?_
  have hvalue : e.params.value? = (reportOf calls ⟨segment, t, sequence⟩ e.id).value := by
    funext name
    rw [ParamMap.value?, (records_resource he).get?_eq]
    rfl
  rw [Entry.report, hvalue]
  rfl

/-- Any two resources that were ever added for a sequence, in whatever segments, store the same
under each of some names, where unset is the same as unset only. -/
def AddedAgree (calls : List Call) (t : SequenceType) (sequence : SequenceId)
    (names : List String) : Prop :=
  ∀ key id key' id', (key, id) ∈ empty.additions calls → (key', id') ∈ empty.additions calls →
    key.type = t → key.sequence = sequence → key'.type = t → key'.sequence = sequence →
    ∀ name ∈ names, (reportOf calls key id).value name = (reportOf calls key' id').value name

theorem agree_reports_run :
    Agree names ((empty.run calls).reports t sequence) ↔ AddedAgree calls t sequence names := by
  rw [reports_run]
  constructor
  · intro h key id key' id' hadded hadded' ht hsequence ht' hsequence' name hname
    exact h name hname _ (List.mem_map_of_mem (mem_membersOf.mpr ⟨hadded, ht, hsequence⟩)) _
      (List.mem_map_of_mem (mem_membersOf.mpr ⟨hadded', ht', hsequence'⟩))
  · intro h name hname a ha b hb
    obtain ⟨⟨key, id⟩, hmem, rfl⟩ := List.mem_map.mp ha
    obtain ⟨⟨key', id'⟩, hmem', rfl⟩ := List.mem_map.mp hb
    obtain ⟨hadded, ht, hsequence⟩ := mem_membersOf.mp hmem
    obtain ⟨hadded', ht', hsequence'⟩ := mem_membersOf.mp hmem'
    exact h key id key' id' hadded hadded' ht hsequence ht' hsequence' name hname

theorem audioAgrees_run :
    (empty.run calls).AudioAgrees ↔
      ∀ sequence, .addSequence .audio sequence ∈ calls →
        AddedAgree calls .audio sequence audioParams := by
  simp only [AudioAgrees, sequenceIds_ofCalls, mem_sequences_iff, agree_reports_run]

/-- After any calls, successful or not, the check of a sequence succeeds exactly if any two of
the resources that were ever added for it agree; otherwise it reports the first name under
which they do not, with the first resource and the first one that differs from it. The check
of the audio succeeds exactly if this holds for each audio sequence. -/
theorem homogeneous_run (calls : List Call) :
    (∀ t sequence names,
      ((empty.run calls).checkHomogeneous t sequence names = .ok () ↔
        AddedAgree calls t sequence names) ∧
      ∀ cause, (empty.run calls).checkHomogeneous t sequence names = .error cause ↔
        ∃ name first other,
          FirstDifference names
            ((membersOf calls t sequence).map fun r => reportOf calls r.1 r.2) name first other ∧
          cause = .homogeneity sequence (.between name first other)) ∧
    (checkAudioHomogeneity (empty.run calls) = .ok () ↔
      ∀ sequence, .addSequence .audio sequence ∈ calls →
        AddedAgree calls .audio sequence ["channels", "channel_layout", "sample_rate"]) := by
  refine ⟨fun t sequence names => ⟨?_, fun cause => ?_⟩, ?_⟩
  · rw [checkHomogeneous_eq_ok, agree_reports_run]
  · rw [checkHomogeneous_eq_error, reports_run]
  · rw [checkAudioHomogeneity_eq_ok, audioAgrees_run]
    rfl

end Store

end MediaPipeline
