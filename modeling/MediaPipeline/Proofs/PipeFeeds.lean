import MediaPipeline.Proofs.CopyLoop
import MediaPipeline.Proofs.PipeLifecycle

/-!
# The copy loops of a pipe

Which loops the record of a pipe opens and waits for, and in which order: a loop between
two neighbours of a chain, and bridges from the groups into the first process of the
tail, one after the other, up to one that fails.

`PipeTrace.bridged` and `PipeTrace.feeds_neighbour` are the main results.
-/

namespace MediaPipeline

/-! ## The loops of a record -/

section Feeds

variable (t : Nat) (es : List Event) (ps : List LiveProcess)
  (ends : List (LiveProcess × Ending))

@[simp] theorem feeds_outline : feeds t (outline es) = feeds t es :=
  filterMap_filter_of (fun e he => by cases e <;> first | rfl | cases he) es

@[simp] theorem feeds_started : feeds t (ps.map .started) = [] := by
  simp [feeds, Event.feed?]

@[simp] theorem feeds_finishes : feeds t (finishes ends) = [] := by
  simp [feeds, finishes, Event.feed?]

@[simp] theorem feeds_finished_cons (p : LiveProcess) (status : Ending) :
    feeds t (.finished p status :: es) = feeds t es := rfl

@[simp] theorem feeds_close_cons (target : Nat) :
    feeds t (.wired (.close target) :: es) = feeds t es := rfl

@[simp] theorem feeds_refusal (p : LiveProcess) (e : OsError) :
    feeds t (refusal ps p e) = [] := by
  simp [feeds, refusal, Event.feed?]

end Feeds

/-- What is done with the loops into `t`, if `f` says what is done behind a process with
the loop to its neighbour. -/
def into (t : Nat) (f : LiveProcess → List Feed) (ps : List LiveProcess) : List Feed :=
  (ps.zip ps.tail).flatMap fun pq => if pq.2.seq = t then f pq.1 else []

/-- What a link between neighbours does with the loops into the second. -/
def linkFeeds (p : LiveProcess) : List Feed :=
  if p.redirect = .pipe then [.opened p.seq true] else []

/-- What the wait for a link does. -/
def joinFeeds (p : LiveProcess) : List Feed :=
  if p.redirect = .pipe then [.over p.seq none] else []

theorem feeds_links (t : Nat) (ps : List LiveProcess) :
    feeds t ((links ps).map .wired) = into t linkFeeds ps := by
  induction ps with
  | nil => rfl
  | cons p rest ih =>
    cases rest with
    | nil => rfl
    | cons q rest =>
      have hp : feeds t [.wired (if p.redirect = .pipe then .connect p.seq q.seq
          else .close q.seq)] = if q.seq = t then linkFeeds p else [] := by
        by_cases hp : p.redirect = .pipe <;> by_cases hq : q.seq = t <;>
          simp [feeds, linkFeeds, Event.feed?, hp, hq]
      rw [links, List.map_cons, ← List.singleton_append, feeds_append, hp, ih]
      rfl

theorem feeds_joins (t : Nat) (ps : List LiveProcess) :
    feeds t ((joins ps).map .wired) = into t joinFeeds ps := by
  induction ps with
  | nil => rfl
  | cons p rest ih =>
    cases rest with
    | nil => rfl
    | cons q rest =>
      have hp : feeds t ((if p.redirect = .pipe then [.join p.seq q.seq] else []).map .wired) =
          if q.seq = t then joinFeeds p else [] := by
        by_cases hp : p.redirect = .pipe <;> by_cases hq : q.seq = t <;>
          simp [feeds, joinFeeds, Event.feed?, hp, hq]
      rw [joins, List.map_append, feeds_append, hp, ih]
      rfl

/-- Nothing goes into a process that is not behind another. -/
theorem into_eq_nil {t : Nat} {f : LiveProcess → List Feed} {ps : List LiveProcess}
    (h : ∀ q ∈ ps.tail, q.seq ≠ t) : into t f ps = [] := by
  refine List.flatMap_eq_nil_iff.mpr fun pq hpq => ?_
  rw [if_neg (h pq.2 (List.of_mem_zip hpq).2)]

/-- What goes into a process comes from its neighbour. -/
theorem into_neighbour {f : LiveProcess → List Feed} {ps : List LiveProcess}
    (hnd : (ps.map (·.seq)).Nodup) {p q : LiveProcess} (hpq : (p, q) ∈ ps.zip ps.tail) :
    into q.seq f ps = f p := by
  induction ps with
  | nil => cases hpq
  | cons x rest ih =>
    cases rest with
    | nil => cases hpq
    | cons y rest =>
      have hstep : into q.seq f (x :: y :: rest) =
          (if y.seq = q.seq then f x else []) ++ into q.seq f (y :: rest) := rfl
      have hnd' := (List.nodup_cons.mp hnd).2
      have hy := (List.nodup_cons.mp hnd').1
      rcases List.mem_cons.mp hpq with hxy | hmem
      · cases hxy
        rw [hstep, if_pos rfl, into_eq_nil, List.append_nil]
        exact fun r hr hs => hy (List.mem_map.mpr ⟨r, hr, hs⟩)
      · have hne : y.seq ≠ q.seq := fun hs =>
          hy (List.mem_map.mpr ⟨q, (List.of_mem_zip hmem).2, hs.symm⟩)
        rw [hstep, if_neg hne, List.nil_append]
        exact ih hnd' hmem

/-! ## Chains that were started whole -/

/-- Every process of a chain was started. -/
def Whole (es : List Event) (ps : List LiveProcess) : Prop := ∀ p ∈ ps, p ∈ started es

instance (es : List Event) (ps : List LiveProcess) : Decidable (Whole es ps) :=
  inferInstanceAs (Decidable (∀ p ∈ ps, p ∈ started es))

/-- The last process of a chain, if it prints to the next. -/
def pipedLast (ps : List LiveProcess) : Option LiveProcess :=
  ps.getLast?.filter fun p => decide (p.redirect = .pipe)

/-- The processes that print into the tail: the last ones of the groups that were
started whole, without those that print to a file. -/
def sources (es : List Event) (groups : List (List LiveProcess)) : List LiveProcess :=
  (groups.filter fun ps => decide (Whole es ps)).filterMap pipedLast

/-- A chain of which a process was refused was not started whole. -/
theorem not_whole_refusal {ps before after : List LiveProcess} {p : LiveProcess}
    (hnd : (ps.map (·.seq)).Nodup) (hps : ps = before ++ p :: after) (e : OsError) :
    ¬ Whole (refusal before p e) ps := by
  intro hw
  have hp : p ∈ before := by simpa using hw p (by simp [hps])
  rw [hps, List.map_append, List.map_cons] at hnd
  exact (List.nodup_append.mp hnd).2.2 p.seq (List.mem_map_of_mem hp) p.seq
    List.mem_cons_self rfl

section Sources

variable {es fs : List Event} {ps : List LiveProcess} {groups : List (List LiveProcess)}

theorem sources_cons_of_whole (h : Whole es ps) :
    sources es (ps :: groups) = (pipedLast ps).toList ++ sources es groups := by
  rw [sources, List.filter_cons_of_pos (by simpa using h), List.filterMap_cons]
  cases pipedLast ps with
  | none => rfl
  | some p => rfl

theorem sources_cons_of_not_whole (h : ¬ Whole es ps) :
    sources es (ps :: groups) = sources es groups := by
  rw [sources, List.filter_cons_of_neg (by simpa using h), ← sources]

theorem sources_congr (h : ∀ ps ∈ groups, Whole es ps ↔ Whole fs ps) :
    sources es groups = sources fs groups := by
  rw [sources, sources]
  congr 1
  exact List.filter_congr fun ps hps => by simp [h ps hps]

/-- Groups that were not started print nothing. -/
theorem sources_eq_nil (h : ∀ ps ∈ groups, ∀ p ∈ ps, p ∉ started es) :
    sources es groups = [] := by
  refine List.filterMap_eq_nil_iff.mpr fun ps hps => ?_
  obtain ⟨hmem, hw⟩ := List.mem_filter.mp hps
  cases ps with
  | nil => rfl
  | cons p rest =>
    exact absurd (of_decide_eq_true hw p List.mem_cons_self) (h _ hmem p List.mem_cons_self)

end Sources

theorem bounds_of_mem_chain {ends : Bool} {input : ProcessInput} {n : Nat} {cmds : List Command}
    {p : LiveProcess} (h : p ∈ chain ends input n cmds) :
    n ≤ p.seq ∧ p.seq < n + cmds.length := by
  have hm : p.seq ∈ (chain ends input n cmds).map (·.seq) := List.mem_map_of_mem h
  rwa [chain_seqs, List.mem_range'_1] at hm

theorem nodup_chain_seqs (ends : Bool) (input : ProcessInput) (n : Nat) (cmds : List Command) :
    ((chain ends input n cmds).map (·.seq)).Nodup := by
  rw [chain_seqs]
  exact List.nodup_range'

theorem le_of_mem_groupChains {n : Nat} {groups : List (List Command)} {ps : List LiveProcess}
    {p : LiveProcess} (hps : ps ∈ groupChains n groups) (hp : p ∈ ps) : n ≤ p.seq := by
  have hm : p.seq ∈ (groupChains n groups).flatten.map (·.seq) :=
    List.mem_map_of_mem (List.mem_flatten_of_mem hps hp)
  rw [groupChains_seqs, List.mem_range'_1] at hm
  exact hm.1

/-! ## The loops of a group -/

/-- What the bridge of a group does, if the tail's input was open before and is as `left`
says afterwards. -/
def bridgeRuns (inputOpen left : Bool) (ps : List LiveProcess) : List (Nat × Option Bool) :=
  if inputOpen then (pipedLast ps).toList.map fun p => (p.seq, some left) else []

theorem feeds_opening_other {t tail : Nat} (h : t ≠ tail) (last : LiveProcess) (o : Bool) :
    feeds t ((opening last tail o).map .wired) = [] := by
  have hne : tail ≠ t := Ne.symm h
  by_cases hp : last.redirect = .pipe <;> cases o <;> simp [feeds, opening, Event.feed?, hp, hne]

theorem feeds_closing_other {t tail : Nat} (h : t ≠ tail) (last : LiveProcess) (o left : Bool) :
    feeds t (closing last tail o left) = [] := by
  have hne : tail ≠ t := Ne.symm h
  by_cases hp : last.redirect = .pipe <;> cases o <;> simp [feeds, closing, Event.feed?, hp, hne]

theorem feeds_bridge (last : LiveProcess) (tail : Nat) (o left : Bool) :
    feeds tail ((opening last tail o).map .wired) ++ feeds tail (closing last tail o left) =
      if last.redirect = .pipe ∧ o = true then feedRun (last.seq, some left) else [] := by
  by_cases hp : last.redirect = .pipe <;> cases o <;>
    simp [feeds, opening, closing, Event.feed?, feedRun, hp]

theorem feeds_groupRecord (t tail : Nat) (o left : Bool) (first : LiveProcess)
    (rest : List LiveProcess) (status : Ending) (ends : List (LiveProcess × Ending)) :
    feeds t (groupRecord tail o left first rest status ends) =
      into t linkFeeds (first :: rest) ++
        feeds t ((opening ((first :: rest).getLast (List.cons_ne_nil first rest)) tail o).map
          .wired) ++
        into t joinFeeds (first :: rest) ++
        feeds t (closing ((first :: rest).getLast (List.cons_ne_nil first rest)) tail o left) := by
  simp only [groupRecord, feeds_append, feeds_started, feeds_finishes, feeds_finished_cons,
    List.map_append, feeds_links, feeds_joins, List.nil_append, List.append_nil,
    List.append_assoc]

theorem pipedLast_cons (first : LiveProcess) (rest : List LiveProcess) :
    pipedLast (first :: rest) =
      if ((first :: rest).getLast (List.cons_ne_nil first rest)).redirect = .pipe then
        some ((first :: rest).getLast (List.cons_ne_nil first rest)) else none := by
  rw [pipedLast, List.getLast?_eq_getLast_of_ne_nil (List.cons_ne_nil first rest)]
  simp [Option.filter]

theorem bridgeRuns_cons (o left : Bool) (first : LiveProcess) (rest : List LiveProcess) :
    bridgeRuns o left (first :: rest) =
      if ((first :: rest).getLast (List.cons_ne_nil first rest)).redirect = .pipe ∧ o = true then
        [(((first :: rest).getLast (List.cons_ne_nil first rest)).seq, some left)] else [] := by
  rw [bridgeRuns, pipedLast_cons]
  by_cases hp : ((first :: rest).getLast (List.cons_ne_nil first rest)).redirect = .pipe <;>
    cases o <;> simp [hp]

/-- What a group does with loops: nothing if it was refused; else it links its
processes, and a bridge goes into the tail. -/
theorem GroupTrace.feeds_cases {tail n : Nat} {inputOpen : Bool} {group : List Command}
    {es : List Event} {r : Except Failure Bool} (h : GroupTrace tail n inputOpen group es r)
    (hn : tail < n) :
    (¬ Whole es (chain false .empty n group) ∧
      (∀ p ∈ started es, p ∈ chain false .empty n group) ∧ (∀ t, feeds t es = []) ∧
      ∃ f, r = .error f) ∨
    started es = chain false .empty n group ∧
      (∀ t, t ≠ tail → feeds t es = into t linkFeeds (chain false .empty n group) ++
        into t joinFeeds (chain false .empty n group)) ∧
      ∃ left, feeds tail es =
          (bridgeRuns inputOpen left (chain false .empty n group)).flatMap feedRun ∧
        (bridgeRuns inputOpen left (chain false .empty n group) = [] → left = inputOpen) ∧
        ∀ b, r = .ok b → b = left := by
  cases h with
  | @refused before p after e hc =>
    refine .inl ⟨not_whole_refusal (nodup_chain_seqs ..) hc e, fun q hq => ?_,
      fun t => feeds_refusal t before p e, _, rfl⟩
    rw [started_refusal] at hq
    exact hc ▸ List.mem_append_left _ hq
  | @ended first rest status ends left hc hends hleft =>
    have hs : started (groupRecord tail inputOpen left first rest status ends) = first :: rest := by
      rw [← started_lifecycle, lifecycle_groupRecord _ _ _ _ _ hends, started_served, List.map_cons,
        hends]
    rw [hc]
    refine .inr ⟨hs, fun t ht => ?_, left, ?_, ?_, ?_⟩
    · rw [feeds_groupRecord, feeds_opening_other ht, feeds_closing_other ht, List.append_nil,
        List.append_nil]
    -- the tail was started before, so no link of the group goes there
    · have htail : ∀ q ∈ (first :: rest).tail, q.seq ≠ tail := fun q hq => by
        have hq : q ∈ chain false .empty n group := hc ▸ List.mem_of_mem_tail hq
        have := (bounds_of_mem_chain hq).1
        omega
      rw [feeds_groupRecord, into_eq_nil htail, into_eq_nil htail, List.nil_append,
        List.append_nil, feeds_bridge, bridgeRuns_cons]
      split
      · simp
      · rfl
    · rw [bridgeRuns_cons]
      intro hb
      refine hleft fun h => ?_
      rw [if_pos h] at hb
      cases hb
    · intro b hb
      obtain ⟨_, hv⟩ | ⟨_, f, hv⟩ := first.verdict_cases status
      · rw [hv] at hb
        cases hb
        rfl
      · rw [hv] at hb
        cases hb

section Group

variable {tail n : Nat} {inputOpen : Bool} {group : List Command} {es : List Event}
  {r : Except Failure Bool}

theorem GroupTrace.started_subset (h : GroupTrace tail n inputOpen group es r) (hn : tail < n) :
    ∀ p ∈ started es, p ∈ chain false .empty n group := by
  obtain ⟨_, hs, _⟩ | ⟨hs, _⟩ := h.feeds_cases hn
  · exact hs
  · exact fun p hp => hs ▸ hp

theorem GroupTrace.started_lt (h : GroupTrace tail n inputOpen group es r) (hn : tail < n) :
    ∀ p ∈ started es, p.seq < n + group.length := fun p hp =>
  (bounds_of_mem_chain (h.started_subset hn p hp)).2

/-- A group that does not stop the pipe was started whole. -/
theorem GroupTrace.whole {left : Bool} (h : GroupTrace tail n inputOpen group es (.ok left))
    (hn : tail < n) : Whole es (chain false .empty n group) := by
  obtain ⟨_, _, _, f, hr⟩ | ⟨hs, _⟩ := h.feeds_cases hn
  · cases hr
  · exact fun p hp => hs ▸ hp

/-- A group does nothing with the loops into other processes than its own and the tail. -/
theorem GroupTrace.feeds_other (h : GroupTrace tail n inputOpen group es r) (hn : tail < n)
    {t : Nat} (ht : t ≠ tail) (hout : t < n ∨ n + group.length ≤ t) : feeds t es = [] := by
  obtain ⟨_, _, hf, _⟩ | ⟨_, hf, _⟩ := h.feeds_cases hn
  · exact hf t
  · have hmem : ∀ q ∈ (chain false .empty n group).tail, q.seq ≠ t := fun q hq => by
      have := bounds_of_mem_chain (List.mem_of_mem_tail hq)
      omega
    rw [hf t ht, into_eq_nil hmem, into_eq_nil hmem, List.append_nil]

/-- Inside a group that was started whole, what a process prints goes to its neighbour. -/
theorem GroupTrace.feeds_neighbour (h : GroupTrace tail n inputOpen group es r) (hn : tail < n)
    (hw : Whole es (chain false .empty n group)) {p q : LiveProcess}
    (hpq : (p, q) ∈ (chain false .empty n group).zip (chain false .empty n group).tail) :
    feeds q.seq es = linkFeeds p ++ joinFeeds p := by
  obtain ⟨hnw, _⟩ | ⟨_, hf, _⟩ := h.feeds_cases hn
  · exact absurd hw hnw
  · have hq := (bounds_of_mem_chain (List.mem_of_mem_tail (List.of_mem_zip hpq).2)).1
    have hnd := nodup_chain_seqs false .empty n group
    rw [hf q.seq (by omega), into_neighbour hnd hpq, into_neighbour hnd hpq]

end Group

/-! ## The loops of all groups -/

/-- How the output of `ps` is brought into the tail, one after the other: the whole of
it, or up to a bridge that fails. -/
inductive Bridged : Bool → List LiveProcess → List (Nat × Option Bool) → Prop where
  /-- The tail's input is not open. -/
  | shut {ps : List LiveProcess} : Bridged false ps []
  | whole (ps : List LiveProcess) : Bridged true ps (ps.map fun p => (p.seq, some true))
  /-- The bridge from `p` fails. -/
  | broken (before : List LiveProcess) (p : LiveProcess) (after : List LiveProcess) :
      Bridged true (before ++ p :: after)
        ((before.map fun p => (p.seq, some true)) ++ [(p.seq, some false)])

theorem Bridged.cons {left : Bool} {ps : List LiveProcess} {runs : List (Nat × Option Bool)}
    (h : Bridged left ps runs) (p : LiveProcess) :
    Bridged true (p :: ps) ((p.seq, some left) :: runs) := by
  cases h with
  | shut => exact .broken [] p ps
  | whole => exact .whole (p :: ps)
  | broken before q after => exact .broken (p :: before) q after

/-- How a bridge has ended is known. -/
theorem Bridged.isNone_eq {o : Bool} {ps : List LiveProcess} {runs : List (Nat × Option Bool)}
    (h : Bridged o ps runs) : ∀ run ∈ runs, run.2.isNone = false := by
  cases h <;> simp [or_imp, forall_and]

theorem Bridged.nil (inputOpen : Bool) : Bridged inputOpen [] [] := by
  cases inputOpen with
  | true => exact .whole []
  | false => exact .shut

/-- A group brings its output into the tail before those that follow it. -/
theorem Bridged.group {o left : Bool} {ps qs : List LiveProcess}
    {runs : List (Nat × Option Bool)} (hleft : bridgeRuns o left ps = [] → left = o)
    (h : Bridged left qs runs) :
    Bridged o ((pipedLast ps).toList ++ qs) (bridgeRuns o left ps ++ runs) := by
  unfold bridgeRuns at hleft ⊢
  cases o with
  | false =>
    obtain rfl := hleft rfl
    cases h
    exact .shut
  | true =>
    cases hl : pipedLast ps with
    | none =>
      rw [hl] at hleft
      obtain rfl := hleft rfl
      exact h
    | some p => exact h.cons p

section Later

variable {m : Nat} {groups : List (List Command)} {es more : List Event} {ps : List LiveProcess}

/-- The numbers of groups that are yet to start are new. -/
theorem not_mem_started (hs : ∀ p ∈ started es, p.seq < m) (hps : ps ∈ groupChains m groups)
    {p : LiveProcess} (hp : p ∈ ps) : p ∉ started es := fun hmem =>
  Nat.not_le.mpr (hs p hmem) (le_of_mem_groupChains hps hp)

theorem whole_append_iff (hs : ∀ p ∈ started es, p.seq < m) (hps : ps ∈ groupChains m groups) :
    Whole (es ++ more) ps ↔ Whole more ps := by
  refine forall₂_congr fun p hp => ?_
  rw [started_append, List.mem_append]
  exact ⟨fun h => h.resolve_left (not_mem_started hs hps hp), .inr⟩

theorem sources_append (hs : ∀ p ∈ started es, p.seq < m) :
    sources (es ++ more) (groupChains m groups) = sources more (groupChains m groups) :=
  sources_congr fun _ hps => whole_append_iff hs hps

theorem sources_of_not_started (hs : ∀ p ∈ started es, p.seq < m) :
    sources es (groupChains m groups) = [] :=
  sources_eq_nil fun _ hps _ hp => not_mem_started hs hps hp

end Later

theorem GroupsTrace.bridged {tail n : Nat} {inputOpen : Bool} {groups : List (List Command)}
    {es : List Event} {r : Except Failure Unit} (h : GroupsTrace tail n inputOpen groups es r)
    (hn : tail < n) :
    ∃ runs, feeds tail es = runs.flatMap feedRun ∧
      Bridged inputOpen (sources es (groupChains n groups)) runs := by
  induction h with
  | @done n inputOpen => exact ⟨[], rfl, .nil inputOpen⟩
  | @failed n inputOpen group groups es f hg =>
    have hnew : sources _ (groupChains (n + group.length) groups) = [] :=
      sources_of_not_started (hg.started_lt hn)
    obtain ⟨hw, _, hf, _⟩ | ⟨hs, _, left, hf, hleft, _⟩ := hg.feeds_cases hn
    · rw [groupChains, sources_cons_of_not_whole hw, hnew]
      exact ⟨[], hf tail, .nil inputOpen⟩
    · have hw : Whole es (chain false .empty n group) := fun p hp => hs ▸ hp
      rw [groupChains, sources_cons_of_whole hw, hnew]
      refine ⟨_, ?_, Bridged.group hleft (.nil left)⟩
      rw [List.append_nil, hf]
  | @next n inputOpen left group groups es more r hg _ ih =>
    obtain ⟨_, _, _, f, hr⟩ | ⟨hs, _, left', hf, hleft, hb⟩ := hg.feeds_cases hn
    · cases hr
    · obtain rfl := hb left rfl
      obtain ⟨runs, hmore, hbr⟩ := ih (by omega)
      have hw : Whole (es ++ more) (chain false .empty n group) := fun p hp => by
        rw [started_append, hs]
        exact List.mem_append_left _ hp
      rw [groupChains, sources_cons_of_whole hw, sources_append (hg.started_lt hn)]
      refine ⟨_, ?_, hbr.group hleft⟩
      rw [feeds_append, hf, hmore, List.flatMap_append]

/-- Groups do nothing with the loops into processes that were started before them,
other than the tail. -/
theorem GroupsTrace.feeds_before {tail n : Nat} {inputOpen : Bool}
    {groups : List (List Command)} {es : List Event} {r : Except Failure Unit}
    (h : GroupsTrace tail n inputOpen groups es r) (hn : tail < n) {t : Nat} (ht : t ≠ tail)
    (hlt : t < n) : feeds t es = [] := by
  induction h with
  | done => rfl
  | failed hg => exact hg.feeds_other hn ht (.inl hlt)
  | next hg _ ih =>
    rw [feeds_append, hg.feeds_other hn ht (.inl hlt), ih (by omega) (by omega), List.append_nil]

theorem GroupsTrace.feeds_neighbour {tail n : Nat} {inputOpen : Bool}
    {groups : List (List Command)} {es : List Event} {r : Except Failure Unit}
    (h : GroupsTrace tail n inputOpen groups es r) (hn : tail < n) {ps : List LiveProcess}
    (hps : ps ∈ groupChains n groups) (hw : Whole es ps) {p q : LiveProcess}
    (hpq : (p, q) ∈ ps.zip ps.tail) : feeds q.seq es = linkFeeds p ++ joinFeeds p := by
  have hp : p ∈ ps := (List.of_mem_zip hpq).1
  have hq : q ∈ ps := List.mem_of_mem_tail (List.of_mem_zip hpq).2
  induction h with
  | done => cases hps
  | @failed n inputOpen group groups es f hg =>
    rcases List.mem_cons.mp hps with rfl | hps
    · exact hg.feeds_neighbour hn hw hpq
    · exact absurd (hw p hp) (not_mem_started (hg.started_lt hn) hps hp)
  | @next n inputOpen left group groups es more r hg hm ih =>
    rw [feeds_append]
    rcases List.mem_cons.mp hps with rfl | hps
    -- the groups that follow have later numbers, those that went before have earlier ones
    · have hlt := bounds_of_mem_chain hq
      rw [hm.feeds_before (by omega) (by omega) (by omega), List.append_nil]
      exact hg.feeds_neighbour hn (hg.whole hn) hpq
    · have hle := le_of_mem_groupChains hps hq
      rw [hg.feeds_other hn (by omega) (.inr hle), List.nil_append]
      exact ih (by omega) hps ((whole_append_iff (hg.started_lt hn) hps).mp hw)

/-! ## The loops of a pipe -/

section Pipe

variable {plan : PipePlan} {n : Nat} {es : List Event} {r : Except Failure Unit}

theorem PipePlan.seq_lt_of_mem_tailChain {p : LiveProcess} (h : p ∈ plan.tailChain n) :
    p.seq < n + plan.tail.length := (bounds_of_mem_chain h).2

/-- The first process of the tail has the first number. -/
theorem PipePlan.seq_of_tailChain {head : LiveProcess} {rest : List LiveProcess}
    (h : plan.tailChain n = head :: rest) :
    head.seq = n ∧ 0 < plan.tail.length ∧ ∀ q ∈ rest, q.seq ≠ n := by
  unfold PipePlan.tailChain at h
  cases ht : plan.tail with
  | nil => rw [ht] at h; cases h
  | cons c cmds =>
    rw [ht, chain] at h
    obtain ⟨rfl, rfl⟩ := List.cons.inj h
    refine ⟨rfl, Nat.succ_pos _, fun q hq => ?_⟩
    have := (bounds_of_mem_chain hq).1
    omega

theorem started_fed (ps : List LiveProcess) (head : Nat) (gs : List Event)
    (ends : List (LiveProcess × Ending)) :
    started (ps.map .started ++ (links ps).map .wired ++ gs ++
      .wired (.close head) :: finishes ends ++ (joins ps).map .wired) = ps ++ started gs := by
  simp

theorem feeds_fed (t : Nat) (ps : List LiveProcess) (head : Nat) (gs : List Event)
    (ends : List (LiveProcess × Ending)) :
    feeds t (ps.map .started ++ (links ps).map .wired ++ gs ++
      .wired (.close head) :: finishes ends ++ (joins ps).map .wired) =
      into t linkFeeds ps ++ feeds t gs ++ into t joinFeeds ps := by
  simp [feeds_links, feeds_joins]

theorem feeds_alone (t : Nat) (ps : List LiveProcess) (p : LiveProcess) (status : Ending)
    (ends : List (LiveProcess × Ending)) :
    feeds t (ps.map .started ++ (links ps).map .wired ++
      .finished p status :: finishes ends ++ (joins ps).map .wired) =
      into t linkFeeds ps ++ into t joinFeeds ps := by
  simp [feeds_links, feeds_joins]

theorem PipePlan.started_refusal_lt {before after : List LiveProcess} {p : LiveProcess}
    (hc : plan.tailChain n = before ++ p :: after) (e : OsError) :
    ∀ q ∈ started (refusal before p e), q.seq < n + plan.tail.length := by
  intro q hq
  rw [started_refusal] at hq
  exact PipePlan.seq_lt_of_mem_tailChain (hc ▸ List.mem_append_left _ hq)

theorem PipePlan.started_tail_lt : ∀ q ∈ started ((plan.tailChain n).map .started),
    q.seq < n + plan.tail.length := by
  intro q hq
  rw [started_started] at hq
  exact PipePlan.seq_lt_of_mem_tailChain hq

theorem whole_fed (ps : List LiveProcess) (head : Nat) (gs : List Event)
    (ends : List (LiveProcess × Ending)) (qs : List LiveProcess) :
    Whole (ps.map .started ++ (links ps).map .wired ++ gs ++
      .wired (.close head) :: finishes ends ++ (joins ps).map .wired) qs ↔
      Whole (ps.map .started ++ gs) qs := by
  unfold Whole
  rw [started_fed, started_append, started_started]

/-- The loops into the tail bring it what the groups print. -/
theorem PipeTrace.bridged (h : PipeTrace plan n es r) :
    ∃ runs, feeds n es = runs.flatMap feedRun ∧
      Bridged true (sources es (plan.groupChains n)) runs := by
  cases h with
  | refused hc =>
    rw [PipePlan.groupChains, sources_of_not_started (PipePlan.started_refusal_lt hc _)]
    exact ⟨[], feeds_refusal .., .nil true⟩
  | @alone first rest status ends hg hc hends =>
    have hne : ∀ q ∈ (first :: rest).tail, q.seq ≠ n := (PipePlan.seq_of_tailChain hc).2.2
    rw [feeds_alone, into_eq_nil hne, into_eq_nil hne, PipePlan.groupChains, hg]
    exact ⟨[], rfl, .nil true⟩
  | @fed head rest gs r ends hg hc hends hes =>
    obtain ⟨hhead, hpos, hrest⟩ := PipePlan.seq_of_tailChain hc
    have hne : ∀ q ∈ (head :: rest).tail, q.seq ≠ n := hrest
    rw [hhead] at hes
    obtain ⟨runs, hf, hb⟩ := hes.bridged (by omega)
    refine ⟨runs, ?_, ?_⟩
    · rw [feeds_fed, into_eq_nil hne, into_eq_nil hne, List.nil_append, List.append_nil, hf]
    · rw [PipePlan.groupChains, sources_congr fun ps _ => whole_fed _ _ _ _ ps, ← hc,
        sources_append PipePlan.started_tail_lt]
      exact hb

/-- In a chain that was started whole, what a process prints goes to its neighbour. -/
theorem PipeTrace.feeds_neighbour (h : PipeTrace plan n es r) {ps : List LiveProcess}
    (hps : ps ∈ plan.tailChain n :: plan.groupChains n) (hw : Whole es ps) {p q : LiveProcess}
    (hpq : (p, q) ∈ ps.zip ps.tail) : feeds q.seq es = linkFeeds p ++ joinFeeds p := by
  have hp : p ∈ ps := (List.of_mem_zip hpq).1
  have hq : q ∈ ps.tail := (List.of_mem_zip hpq).2
  have hnd : ((plan.tailChain n).map (·.seq)).Nodup := nodup_chain_seqs ..
  cases h with
  | @refused before c after e hc =>
    rcases List.mem_cons.mp hps with rfl | hps
    · exact absurd hw (not_whole_refusal hnd hc e)
    · exact absurd (hw p hp) (not_mem_started (PipePlan.started_refusal_lt hc e) hps hp)
  | @alone first rest status ends hg hc hends =>
    rcases List.mem_cons.mp hps with rfl | hps
    · rw [feeds_alone, ← hc, into_neighbour hnd hpq, into_neighbour hnd hpq]
    · rw [PipePlan.groupChains, hg] at hps
      cases hps
  | @fed head rest gs r ends hg hc hends hes =>
    obtain ⟨hhead, hpos, hrest⟩ := PipePlan.seq_of_tailChain hc
    rw [hhead] at hes
    rw [feeds_fed, ← hc]
    rcases List.mem_cons.mp hps with rfl | hps
    · have hne : q.seq ≠ n := hrest q (by rw [hc] at hq; exact hq)
      have hlt := PipePlan.seq_lt_of_mem_tailChain (List.mem_of_mem_tail hq)
      rw [hes.feeds_before (by omega) hne hlt, into_neighbour hnd hpq, into_neighbour hnd hpq,
        List.append_nil]
    · have hle := le_of_mem_groupChains hps (List.mem_of_mem_tail hq)
      have hne : ∀ c ∈ (plan.tailChain n).tail, c.seq ≠ q.seq := fun c hc => by
        have := PipePlan.seq_lt_of_mem_tailChain (List.mem_of_mem_tail hc)
        omega
      rw [whole_fed, ← hc, whole_append_iff PipePlan.started_tail_lt hps] at hw
      rw [into_eq_nil hne, into_eq_nil hne, List.nil_append, List.append_nil]
      exact hes.feeds_neighbour (by omega) hps hw hpq

end Pipe

end MediaPipeline
