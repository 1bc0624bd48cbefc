import MediaPipeline.Proofs.ChannelMappings
import MediaPipeline.Proofs.ResourceAgreement
import MediaPipeline.Proofs.RunCourse
import MediaPipeline.Proofs.TemplateWrites

/-!
# The mapping that is used when none is given

Positions are filled by going through the tracks, and numbered by the sums of the tracks
before. The two are inverse: a position is fed by the channel that has its number, whatever the
tracks are (`feeds_defaultMapping`), so that the mapping always fits. An operation without a
mapping of its own therefore fails only for what it reads from the store and from the template
of its layout (`execute_defaultMapping`).
-/

namespace MediaPipeline

/-! ## Filled positions -/

/-- What feeds a position when positions are filled in order: the channel that has its number,
or silence if there are not so many channels. -/
def Feeds (tracks : List Nat) (position : Nat) : OutputChannel → Prop
  | .source track channel =>
    InTrack tracks track channel ∧ exactChannel tracks track channel = position
  | .silence => tracks.sum ≤ position

theorem length_fillPositions (room track : Nat) (tracks : List Nat) :
    (fillPositions room track tracks).length = room := by
  induction tracks generalizing room track with
  | nil => exact List.length_replicate
  | cons n rest ih =>
    rw [fillPositions, List.length_append, List.length_map, List.length_range, ih]
    omega

/-- The induction is on the tracks that are left. If there is room left after one of them, all
of its channels have been placed, so that positions and numbers go on together. -/
theorem feeds_fillPositions {before rest : List Nat} {room i : Nat} {entry : OutputChannel}
    (h : (fillPositions room (before.length + 1) rest)[i]? = some entry) :
    Feeds (before ++ rest) (before.sum + i) entry := by
  induction rest generalizing before room i with
  | nil =>
    rw [fillPositions, List.getElem?_replicate, Option.ite_none_right_eq_some] at h
    obtain rfl := Option.some.inj h.2
    rw [Feeds, List.append_nil]
    exact Nat.le_add_right _ _
  | cons n rest ih =>
    rw [fillPositions, List.getElem?_append, List.length_map, List.length_range] at h
    by_cases hi : i < min n room
    · rw [if_pos hi, List.getElem?_map, List.getElem?_range hi] at h
      obtain rfl := Option.some.inj h
      have hn : i + 1 ≤ n := Nat.lt_of_lt_of_le hi (Nat.min_le_left n room)
      refine ⟨⟨Nat.succ_pos _, Nat.succ_pos _, n, ?_, hn⟩, ?_⟩
      · rw [Nat.add_sub_cancel, List.getElem?_append_right (Nat.le_refl _), Nat.sub_self]
        rfl
      · rw [exactChannel, Nat.add_sub_cancel, Nat.add_sub_cancel, List.take_left]
    · rw [if_neg hi] at h
      have hroom : i - min n room < room - n := by
        obtain ⟨hlt, -⟩ := List.getElem?_eq_some_iff.mp h
        rwa [length_fillPositions] at hlt
      have hplaced : min n room = n := by omega
      have hlength : before.length + 1 = (before ++ [n]).length := by simp
      have hposition : (before ++ [n]).sum + (i - n) = before.sum + i := by
        rw [List.sum_append, List.sum_singleton]
        omega
      rw [hplaced, hlength] at h
      have hfeeds := ih h
      rwa [hposition, List.append_assoc] at hfeeds

/-- Every position of a layout is filled by what feeds it. -/
theorem feeds_defaultMapping {tracks : List Nat} {layout : ChannelLayout} {i : Nat}
    {entry : OutputChannel} (h : (defaultMapping tracks layout)[i]? = some entry) :
    Feeds tracks i entry := by
  have hfeeds : Feeds ([] ++ tracks) (([] : List Nat).sum + i) entry := feeds_fillPositions h
  rwa [List.sum_nil, Nat.zero_add] at hfeeds

/-! ## Its expression -/

/-- Set a position to the channel with the same number, or to silence if there is none. -/
def directTerm (inputs position : Nat) : String :=
  if position < inputs then
    "|c" ++ Text.showNat position ++ "=c" ++ Text.showNat position
  else "|c" ++ Text.showNat position ++ "=0*c0"

/-- The expression that sets each position to the channel with the same number, as far as there
are any. -/
def directExpression (inputs channels : Nat) : String :=
  Text.showNat channels ++ "c" ++ String.join ((List.range channels).map (directTerm inputs))

section Expression

variable {tracks : List Nat} {layout : ChannelLayout} {entry : OutputChannel} {i : Nat}

theorem Feeds.countsFromOne (h : Feeds tracks i entry) : entry.CountsFromOne := by
  cases entry with
  | silence => trivial
  | source track channel => exact h.1.channel_pos

/-- The channel that feeds a position fits, and no sum on the way to its number exceeds the
position by more than one. -/
theorem Feeds.fits (h : Feeds tracks i entry) (hi : i + 1 < Text.sizeLimit) :
    entry.Fits tracks ∧ entry.InRange tracks := by
  cases entry with
  | silence => exact ⟨trivial, trivial⟩
  | source track channel =>
    obtain ⟨hin, rfl⟩ := h
    exact ⟨hin, (sumsFit_iff tracks track hin.channel_pos).mpr hi⟩

theorem Feeds.termText_eq (h : Feeds tracks i entry) :
    termText (exactChannel tracks) i entry = directTerm tracks.sum i := by
  cases entry with
  | silence => rw [termText, directTerm, if_neg (Nat.not_lt.mpr h)]
  | source track channel =>
    obtain ⟨hin, rfl⟩ := h
    rw [termText, directTerm, if_pos hin.exactChannel_lt_sum]

theorem expression_defaultMapping :
    expression (exactChannel tracks) (defaultMapping tracks layout) =
      directExpression tracks.sum layout.channels := by
  have hlength : (defaultMapping tracks layout).length = layout.channels :=
    length_fillPositions _ _ _
  rw [expression, directExpression, hlength]
  congr 2
  refine List.ext_getElem (by simp [hlength]) fun i hi _ => ?_
  simp only [List.length_map, List.length_zipIdx, hlength] at hi
  simp only [List.getElem_map, List.getElem_zipIdx, List.getElem_range, Nat.zero_add]
  exact (feeds_defaultMapping (List.getElem?_eq_getElem _)).termText_eq

/-- The mapping fits, whatever the tracks are. -/
theorem panParameter_defaultMapping (hlayout : layout.channels < Text.sizeLimit) :
    panParameter tracks layout (defaultMapping tracks layout) =
      .ok (directExpression tracks.sum layout.channels) := by
  have hlength : (defaultMapping tracks layout).length = layout.channels :=
    length_fillPositions _ _ _
  have hpos : ∀ entry ∈ defaultMapping tracks layout, entry.CountsFromOne := by
    intro entry hentry
    obtain ⟨i, hi⟩ := List.mem_iff_getElem?.mp hentry
    exact (feeds_defaultMapping hi).countsFromOne
  refine (panParameter_eq_ok hpos).mpr ⟨hlength, fun entry hentry => ?_,
    expression_defaultMapping.symm⟩
  obtain ⟨i, hi⟩ := List.mem_iff_getElem?.mp hentry
  have hlt : i < layout.channels := hlength ▸ (List.getElem?_eq_some_iff.mp hi).1
  exact (feeds_defaultMapping hi).fits (by omega)

end Expression

/-! ## Layouts and tracks -/

/-- A layout is found by its name, the case of ASCII letters aside. -/
theorem ChannelLayout.ofName?_eq_some {name : String} {layout : ChannelLayout} :
    ofName? name = some layout ↔ layout ∈ all ∧
      Text.lowercaseAscii layout.name.toList = Text.lowercaseAscii name.toList := by
  have hdistinct : (all.map fun l => Text.lowercaseAscii l.name.toList).Nodup := by
    decide +kernel
  have hfound {l : ChannelLayout} (h : ofName? name = some l) : l ∈ all ∧
      Text.lowercaseAscii l.name.toList = Text.lowercaseAscii name.toList := by
    rw [ofName?] at h
    have hname := List.find?_some h
    exact ⟨List.mem_of_find?_eq_some h, of_decide_eq_true hname⟩
  refine ⟨hfound, fun ⟨hmem, hname⟩ => ?_⟩
  have hsome : (ofName? name).isSome = true := by
    rw [ofName?, List.find?_isSome]
    exact ⟨layout, hmem, decide_eq_true hname⟩
  obtain ⟨other, hother⟩ := Option.isSome_iff_exists.mp hsome
  obtain ⟨hmem', hname'⟩ := hfound hother
  rwa [List.inj_on_of_nodup_map hdistinct hmem' hmem (hname'.trans hname.symm)] at hother

/-- If each of several readings succeeds, then all of them do, in order. -/
theorem mapM_eq_ok {α β ε : Type} {f : α → Except ε β} {l : List α} {bs : List β} :
    l.mapM f = .ok bs ↔ List.Forall₂ (fun a b => f a = .ok b) l bs := by
  induction l generalizing bs with
  | nil =>
    rw [List.mapM_nil, List.forall₂_nil_left_iff]
    exact ⟨fun h => (Except.ok.inj h).symm, fun h => congrArg Except.ok h.symm⟩
  | cons a rest ih =>
    rw [List.mapM_cons, List.forall₂_cons_left_iff]
    constructor
    · intro h
      obtain ⟨b, hb, h⟩ := bind_eq_ok.mp h
      obtain ⟨more, hmore, h⟩ := bind_eq_ok.mp h
      exact ⟨b, more, hb, ih.mp hmore, (Except.ok.inj h).symm⟩
    · rintro ⟨b, more, hb, hmore, rfl⟩
      exact bind_eq_ok.mpr ⟨b, hb, bind_eq_ok.mpr ⟨more, ih.mpr hmore, rfl⟩⟩

namespace Store

variable {calls : List Call} {id : SequenceId} {n : Nat}

/-- The number of channels that was inserted last for a sequence. -/
def ReportsChannels (calls : List Call) (id : SequenceId) (n : Nat) : Prop :=
  ∃ param, lastValue? channelsParam (empty.insertions (.sequence .audio id) calls) = some param ∧
    Text.Spells (Text.trim param.value.toList) n ∧ n < Text.sizeLimit

/-- A registered sequence answers with what was inserted last, if that is set. -/
theorem getParameter_sequence_eq_ok {t : SequenceType} {name value : String}
    (hid : .addSequence t id ∈ calls) (hname : name ∉ ContextKind.sequence.builtinNames) :
    (empty.run calls).getParameter .sequence (Scope.global.withSequence t id) name = .ok value ↔
      ∃ param, lastValue? name (empty.insertions (.sequence t id) calls) = some param ∧
        param.value = value := by
  have hmem : id ∈ ((empty.run calls).sequenceEntries t).map (·.id) := by
    rw [← mem_sequences_iff, ← sequenceIds_ofCalls] at hid
    exact hid
  obtain ⟨i, e, hpick, hi, rfl⟩ := Template.pick_current hmem (.unknownSequence t)
  simp only [ContextKind.builtinNames, List.mem_cons, List.not_mem_nil, or_false, not_or] at hname
  obtain ⟨huuid, hindex, hnum, htype⟩ := hname
  have hfind : (empty.run calls).find .sequence (Scope.global.withSequence t e.id) .current name =
      stored e.params name := by
    simp only [find, Scope.withSequence, Scope.sequenceType?, Option.map_some, if_neg hnum,
      if_neg htype, sequenceAt, hpick]
    show entryValue name (i, e) = _
    rw [entryValue, if_neg huuid, if_neg hindex]
  rw [getParameter, lookup, hfind, mapError_eq_ok, stored, ParamMap.value?,
    (records_sequence (List.mem_of_getElem? hi)).get?_eq]
  cases lastValue? name (empty.insertions (.sequence t e.id) calls) with
  | none => simp
  | some param => simp

theorem channelCount_eq_ok (hid : .addSequence .audio id ∈ calls) :
    channelCount (empty.run calls) id = .ok n ↔ ReportsChannels calls id n := by
  have hvalue (value : String) :
      (empty.run calls).getParameter .sequence (Scope.global.withSequence .audio id)
        channelsParam = .ok value ↔
      ∃ param, lastValue? channelsParam (empty.insertions (.sequence .audio id) calls) =
        some param ∧ param.value = value :=
    getParameter_sequence_eq_ok hid (by decide)
  rw [channelCount, ReportsChannels]
  cases hfound : (empty.run calls).getParameter .sequence (Scope.global.withSequence .audio id)
      channelsParam with
  | error missing =>
    refine iff_of_false (fun h => nomatch h) ?_
    rintro ⟨param, hparam, -⟩
    rw [(hvalue param.value).mpr ⟨param, hparam, rfl⟩] at hfound
    cases hfound
  | ok value =>
    obtain ⟨param, hparam, rfl⟩ := (hvalue value).mp hfound
    simp only [hparam, Option.some.injEq, exists_eq_left', ← Text.size?_eq_some]
    cases Text.size? (Text.trim param.value.toList) with
    | none => simp
    | some k => simp

theorem trackChannels_eq_ok {tracks : List Nat} :
    trackChannels (empty.run calls) = .ok tracks ↔
      List.Forall₂ (ReportsChannels calls) ((Registry.ofCalls calls).sequences .audio) tracks := by
  rw [trackChannels, mapM_eq_ok, sequenceIds_ofCalls, List.forall₂_iff_zip, List.forall₂_iff_zip]
  refine and_congr_right fun _ => forall_congr' fun id => forall_congr' fun n => ?_
  refine forall_congr' fun hmem => channelCount_eq_ok ?_
  exact mem_sequences_iff.mp (List.of_mem_zip hmem).1

end Store

/-! ## Operations -/

/-- A template comes to the name of a layout, in whatever case. -/
def Template.Names (t : Template) (scope : Scope) (s : Store) (layout : ChannelLayout) : Prop :=
  ∃ name, ((t.render scope).result s).1 = .ok name ∧ layout ∈ ChannelLayout.all ∧
    Text.lowercaseAscii layout.name.toList = Text.lowercaseAscii name.toList

theorem Template.Names.channels_lt {t : Template} {scope : Scope} {s : Store}
    {layout : ChannelLayout} (h : t.Names scope s layout) : layout.channels < Text.sizeLimit := by
  have hall : ∀ l ∈ ChannelLayout.all, l.channels < Text.sizeLimit := by
    decide
  obtain ⟨name, -, hmem, -⟩ := h
  exact hall layout hmem

namespace Run

variable {σ : Type}

/-- The checks come first. Only the template of the layout writes to the store before the
expression is stored. -/
theorem result_runAudioMap (m : AudioMapTemplate) (scope : Scope) (s : RunState σ) :
    (runAudioMap m scope).result s =
      match checkAudioHomogeneity s.store with
      | .error cause => (.error (.plain cause), s)
      | .ok _ =>
        match trackChannels s.store with
        | .error cause => (.error (.plain cause), s)
        | .ok tracks =>
          match (m.layout.render scope).result s.store with
          | (.error cause, u) => (.error (.plain cause), { s with store := u })
          | (.ok name, u) =>
            match ChannelLayout.ofName? name with
            | none => (.error (.plain (.config (.unknownLayout name))), { s with store := u })
            | some layout =>
              match panParameter tracks layout
                  (m.mapping.getD (defaultMapping tracks layout)) with
              | .error cause => (.error (.plain cause), { s with store := u })
              | .ok pan => (.ok (), { s with store := u.setDynamic m.parameter pan }) := by
  simp only [runAudioMap, result_bind, result_store, result_ofExcept, result_onStore,
    Template.StoreM.result]
  cases checkAudioHomogeneity s.store with
  | error cause => rfl
  | ok _ =>
    dsimp only [Except.mapError]
    cases trackChannels s.store with
    | error cause => rfl
    | ok tracks =>
      dsimp only
      rcases StateT.run (ExceptT.run (m.layout.render scope)) s.store with ⟨cause | name, u⟩
      · rfl
      · dsimp only
        cases ChannelLayout.ofName? name with
        | none => rfl
        | some layout =>
          dsimp only
          rw [result_bind, result_ofExcept]
          cases panParameter tracks layout (m.mapping.getD (defaultMapping tracks layout)) with
          | error cause => rfl
          | ok pan => rfl

theorem runAudioMap_eq_ok {m : AudioMapTemplate} {scope : Scope} {s t : RunState σ} :
    (runAudioMap m scope).result s = (.ok (), t) ↔ s.store.AudioAgrees ∧
      ∃ tracks layout pan, trackChannels s.store = .ok tracks ∧
        m.layout.Names scope s.store layout ∧
        panParameter tracks layout (m.mapping.getD (defaultMapping tracks layout)) = .ok pan ∧
        t = { s with
          store := ((m.layout.render scope).result s.store).2.setDynamic m.parameter pan } := by
  rw [result_runAudioMap, ← checkAudioHomogeneity_eq_ok]
  unfold Template.Names
  generalize (m.layout.render scope).result s.store = rendered
  constructor
  · intro h
    split at h
    · cases h
    · next hagree =>
      split at h
      · cases h
      · next tracks htracks =>
        obtain ⟨cause | name, u⟩ := rendered
        · cases h
        · dsimp only at h
          split at h
          · cases h
          · next layout hlayout =>
            split at h
            · cases h
            · next pan hpan =>
              obtain ⟨-, rfl⟩ := Prod.mk.inj h
              exact ⟨hagree, tracks, layout, pan, htracks,
                ⟨name, rfl, ChannelLayout.ofName?_eq_some.mp hlayout⟩, hpan, rfl⟩
  · rintro ⟨hagree, tracks, layout, pan, htracks, ⟨name, hname, hlayout⟩, hpan, rfl⟩
    obtain ⟨outcome, u⟩ := rendered
    obtain rfl : outcome = .ok name := hname
    rw [hagree, htracks]
    dsimp only
    rw [ChannelLayout.ofName?_eq_some.mpr hlayout]
    dsimp only
    rw [hpan]

/-- A failure leaves at most the marks of the loops in the template of the layout. -/
theorem runAudioMap_failed {m : AudioMapTemplate} {scope : Scope} {s t : RunState σ} {f : Failure}
    (hs : s.store.dynamic.Consistent) (h : (runAudioMap m scope).result s = (.error f, t)) :
    s.store.DiffersIn m.layout.tree.loopVariables t.store := by
  have hrendered : s.store.DiffersIn m.layout.tree.loopVariables
      ((m.layout.render scope).result s.store).2 := by
    rw [Template.render_notes]
    exact Store.differsIn_notePasses hs fun p hp => Template.var_mem_of_mem_passes hp
  rw [result_runAudioMap] at h
  split at h
  · cases h
    exact .refl _ _
  · split at h
    · cases h
      exact .refl _ _
    · split at h
      · next hrender =>
        cases h
        rwa [hrender] at hrendered
      · next hrender =>
        rw [hrender] at hrendered
        split at h
        · cases h
          exact hrendered
        · split at h
          · cases h
            exact hrendered
          · cases h

variable (setup : RunSetup σ)

theorem result_execute_audioMap (m : AudioMapTemplate) (scope : Scope) (s : RunState σ) :
    (execute setup scope (.audioMap m .done)).result s =
      (((runAudioMap m scope).result (s.entered m.name scope)).1.mapError
          (·.inOperation m.name scope),
        ((runAudioMap m scope).result (s.entered m.name scope)).2) := by
  rw [execute, result_bind, result_step, result_placed]
  rcases (runAudioMap m scope).result (s.entered m.name scope) with ⟨f | _, t⟩ <;> rfl

/-- What an operation with no mapping of its own comes to. -/
structure DefaultMappingOutcome (calls : List Store.Call) (m : AudioMapTemplate) (scope : Scope)
    (s : RunState σ) (outcome : Except Failure Unit × RunState σ) : Prop where
  /-- It succeeds exactly if the resources of every audio sequence agree, every audio sequence
  reports a number of channels, and the template comes to the name of a layout. It then stores
  the expression that feeds each position of the layout by the channel with its number, and
  silence when there is none. -/
  succeeds : ∀ t, outcome = (.ok (), t) ↔
    (∀ sequence, .addSequence .audio sequence ∈ calls →
      Store.AddedAgree calls .audio sequence audioParams) ∧
    ∃ tracks layout,
      List.Forall₂ (Store.ReportsChannels calls)
        ((Registry.ofCalls calls).sequences .audio) tracks ∧
      m.layout.Names scope s.store layout ∧
      t = { s.entered m.name scope with
        store := ((m.layout.render scope).result s.store).2.setDynamic m.parameter
          (directExpression tracks.sum layout.channels) }
  /-- When it fails, only loops in the template have left anything in the store. -/
  frame : ∀ f, outcome.1 = .error f →
    s.store.DiffersIn m.layout.tree.loopVariables outcome.2.store
  kept : ∀ f, outcome.1 = .error f → m.parameter ∉ m.layout.tree.loopVariables →
    outcome.2.store.dynamic.get? m.parameter = s.store.dynamic.get? m.parameter

/-- Whatever the tracks and the layout, the mapping that is used when none is given fits, and
feeds each position by the channel with its number. -/
theorem execute_defaultMapping (calls : List Store.Call) {m : AudioMapTemplate}
    (hm : m.mapping = none) (scope : Scope) {s : RunState σ} (hs : s.store = Store.empty.run calls) :
    (∀ tracks layout, layout.channels < Text.sizeLimit →
      panParameter tracks layout (defaultMapping tracks layout) =
        .ok (directExpression tracks.sum layout.channels)) ∧
    DefaultMappingOutcome calls m scope s
      ((execute setup scope (.audioMap m .done)).result s) := by
  have hstart : (s.entered m.name scope).store = Store.empty.run calls := hs
  have hframe : ∀ f, ((execute setup scope (.audioMap m .done)).result s).1 = .error f →
      s.store.DiffersIn m.layout.tree.loopVariables
        ((execute setup scope (.audioMap m .done)).result s).2.store := by
    intro f hf
    rw [result_execute_audioMap] at hf ⊢
    obtain ⟨cause, hcause, -⟩ := mapError_eq_error.mp hf
    refine runAudioMap_failed (s := s.entered m.name scope) ?_ (Prod.ext hcause rfl)
    rw [hstart]
    exact (Store.consistent_run calls).dynamic
  refine ⟨fun tracks layout hlayout => panParameter_defaultMapping hlayout, ?_, hframe,
    fun f hf hparameter => (hframe f hf).found _ hparameter⟩
  intro t
  have hrun : (execute setup scope (.audioMap m .done)).result s = (.ok (), t) ↔
      (runAudioMap m scope).result (s.entered m.name scope) = (.ok (), t) := by
    rw [result_execute_audioMap, Prod.ext_iff, Prod.ext_iff, mapError_eq_ok]
  rw [hrun, runAudioMap_eq_ok, hstart, Store.audioAgrees_run, hm, hs]
  simp only [Store.trackChannels_eq_ok, Option.getD_none]
  refine and_congr_right fun _ => exists_congr fun tracks => exists_congr fun layout => ?_
  constructor
  · rintro ⟨pan, htracks, hnames, hpan, rfl⟩
    rw [panParameter_defaultMapping hnames.channels_lt] at hpan
    obtain rfl := Except.ok.inj hpan
    exact ⟨htracks, hnames, rfl⟩
  · rintro ⟨htracks, hnames, rfl⟩
    exact ⟨_, htracks, hnames, panParameter_defaultMapping hnames.channels_lt, rfl⟩

/-- Three audio sequences of one, of no and of two channels, with a resource in the first one,
and a parameter that is set already. -/
def trackCalls : List Store.Call :=
  let counted (id : SequenceId) (channels : String) : Store.Call :=
    .addParameter .sequence (Scope.global.withSequence .audio id) "channels" (.keep channels)
  [.addSegment ⟨⟨1⟩⟩, .addSequence .audio ⟨⟨2⟩⟩, .addSequence .audio ⟨⟨3⟩⟩,
    .addSequence .audio ⟨⟨4⟩⟩, .addResource ⟨⟨⟨1⟩⟩, .audio, ⟨⟨2⟩⟩⟩ ⟨⟨5⟩⟩, counted ⟨⟨2⟩⟩ "1",
    counted ⟨⟨3⟩⟩ "0", counted ⟨⟨4⟩⟩ " +2 ", .setDynamic "pan" "old"]

/-- A mapping to a layout. -/
def mappingTo (layout : String) : AudioMapTemplate :=
  ⟨⟨"map", "sample"⟩, ⟨layout, .text layout.toList .done⟩, none, "pan"⟩

/-- A layout that has one channel more than there are, and one that is not known. -/
theorem execute_defaultMapping_quad :
    let s : RunState Unit := ⟨Store.empty.run trackCalls, firstSeq, (), []⟩
    let r (layout : String) :=
      (execute (sampleSetup [] []) .global (.audioMap (mappingTo layout) .done)).result s
    (∀ layout, (mappingTo layout).mapping = none) ∧
    panParameter [1, 0, 2] ⟨"quad", 4⟩ (defaultMapping [1, 0, 2] ⟨"quad", 4⟩) =
      .ok "4c|c0=c0|c1=c1|c2=c2|c3=0*c0" ∧
    DefaultMappingOutcome trackCalls (mappingTo "QUAD") .global s (r "QUAD") ∧
    (r "QUAD").1 = .ok () ∧
    (r "QUAD").2.store.dynamic.get? "pan" = some (.keep "4c|c0=c0|c1=c1|c2=c2|c3=0*c0") ∧
    (r "9.1").1 = .error (.within ⟨"map", "sample"⟩ .global (.config (.unknownLayout "9.1"))) ∧
    (r "9.1").2.store.dynamic.get? "pan" = some (.keep "old") := by
  intro s r
  have h (layout : String) := execute_defaultMapping (sampleSetup [] []) trackCalls
    (m := mappingTo layout) rfl .global (s := s) rfl
  have hfailed : (r "9.1").1 =
      .error (.within ⟨"map", "sample"⟩ .global (.config (.unknownLayout "9.1"))) := by
    decide +kernel
  refine ⟨fun _ => rfl, ?_, (h "QUAD").2, by decide +kernel, by decide +kernel, hfailed, ?_⟩
  · exact (h "QUAD").1 [1, 0, 2] ⟨"quad", 4⟩ (by decide)
  · exact ((h "9.1").2.kept _ hfailed (by decide)).trans (by decide +kernel)

end Run

end MediaPipeline
