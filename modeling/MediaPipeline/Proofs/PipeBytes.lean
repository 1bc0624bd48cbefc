import MediaPipeline.Proofs.PipeFeeds
import MediaPipeline.Proofs.Replay

/-!
# The bytes that go through a pipe

What the processes of a pipe receive, however the copy loops are scheduled and
whichever of them fail. The record of a pipe says which loops it opens and waits
for, and when it closes the tail's input; `Execution.fed` and `Execution.isShut_iff` turn
that into bytes.

`runPipe_bytes` is the main result: the first process of the tail receives what the
groups print, in their order, up to a bridge that fails; its input is open until the last
group has ended; and inside a chain every process receives what the one before it prints.
-/

namespace MediaPipeline

/-! ## How long the tail's input is open -/

section Close

variable {t : Nat} {ps : List LiveProcess}

theorem close_notMem_links (h : ∀ q ∈ ps.tail, q.seq ≠ t) : .close t ∉ links ps := by
  induction ps with
  | nil => exact List.not_mem_nil
  | cons p rest ih =>
    cases rest with
    | nil => exact List.not_mem_nil
    | cons q rest =>
      obtain ⟨hq, hrest⟩ := List.forall_mem_cons.mp h
      rw [links, List.mem_cons, not_or]
      refine ⟨?_, ih hrest⟩
      split
      · exact fun he => by cases he
      · exact fun he => hq (Wiring.close.inj he).symm

/-- Behind a process that prints to a file the input is closed. -/
theorem close_mem_links {p q : LiveProcess} (hpq : (p, q) ∈ ps.zip ps.tail)
    (hp : p.redirect ≠ .pipe) : .close q.seq ∈ links ps := by
  induction ps with
  | nil => cases hpq
  | cons x rest ih =>
    cases rest with
    | nil => cases hpq
    | cons y rest =>
      rw [links]
      rcases List.mem_cons.mp hpq with hxy | hmem
      · cases hxy
        rw [if_neg hp]
        exact List.mem_cons_self
      · exact List.mem_cons_of_mem _ (ih hmem)

theorem close_notMem_joins : .close t ∉ joins ps := by
  induction ps with
  | nil => exact List.not_mem_nil
  | cons p rest ih =>
    cases rest with
    | nil => exact List.not_mem_nil
    | cons q rest =>
      rw [joins, List.mem_append, not_or]
      refine ⟨?_, ih⟩
      split <;> simp

theorem close_notMem_opening (last : LiveProcess) (tail : Nat) (o : Bool) :
    .close t ∉ opening last tail o := by
  unfold opening
  split
  · cases o <;> simp
  · exact List.not_mem_nil

end Close

/-- A group closes no input of a process that was started before it. -/
theorem GroupTrace.close_notMem {tail n : Nat} {o : Bool} {group : List Command}
    {es : List Event} {r : Except Failure Bool} (h : GroupTrace tail n o group es r) {t : Nat}
    (ht : t < n) : .wired (.close t) ∉ es := by
  cases h with
  | refused => simp [refusal]
  | @ended first rest status ends left hc =>
    have hlinks : .close t ∉ links (first :: rest) := by
      rw [← hc]
      refine close_notMem_links fun q hq => ?_
      have := (bounds_of_mem_chain (List.mem_of_mem_tail hq)).1
      omega
    simp only [groupRecord, closing]
    split <;> simp [finishes, hlinks, close_notMem_joins, close_notMem_opening]

theorem GroupsTrace.close_notMem {tail n : Nat} {o : Bool} {groups : List (List Command)}
    {es : List Event} {r : Except Failure Unit} (h : GroupsTrace tail n o groups es r) {t : Nat}
    (ht : t < n) : .wired (.close t) ∉ es := by
  induction h with
  | done => exact List.not_mem_nil
  | failed hg => exact hg.close_notMem ht
  | next hg _ ih =>
    exact fun hm => (List.mem_append.mp hm).elim (hg.close_notMem ht) (ih (by omega))

theorem GroupTrace.close_mem {tail n : Nat} {o : Bool} {group : List Command}
    {es : List Event} {r : Except Failure Bool} (h : GroupTrace tail n o group es r)
    (hw : Whole es (chain false .empty n group)) {p q : LiveProcess}
    (hpq : (p, q) ∈ (chain false .empty n group).zip (chain false .empty n group).tail)
    (hp : p.redirect ≠ .pipe) : .wired (.close q.seq) ∈ es := by
  cases h with
  | refused hc => exact absurd hw (not_whole_refusal (nodup_chain_seqs ..) hc _)
  | ended hc =>
    rw [hc] at hpq
    have := close_mem_links hpq hp
    simp [groupRecord, this]

theorem GroupsTrace.close_mem {tail n : Nat} {o : Bool} {groups : List (List Command)}
    {es : List Event} {r : Except Failure Unit} (h : GroupsTrace tail n o groups es r)
    (hn : tail < n) {ps : List LiveProcess} (hps : ps ∈ groupChains n groups)
    (hw : Whole es ps) {p q : LiveProcess} (hpq : (p, q) ∈ ps.zip ps.tail)
    (hp : p.redirect ≠ .pipe) : .wired (.close q.seq) ∈ es := by
  have hmem : p ∈ ps := (List.of_mem_zip hpq).1
  induction h with
  | done => cases hps
  | failed hg =>
    rcases List.mem_cons.mp hps with rfl | hps
    · exact hg.close_mem hw hpq hp
    · exact absurd (hw p hmem) (not_mem_started (hg.started_lt hn) hps hmem)
  | next hg _ ih =>
    rcases List.mem_cons.mp hps with rfl | hps
    · exact List.mem_append_left _ (hg.close_mem (hg.whole hn) hpq hp)
    · exact List.mem_append_right _
        (ih (by omega) hps ((whole_append_iff (hg.started_lt hn) hps).mp hw))

section Close

variable {plan : PipePlan} {n : Nat} {es : List Event} {r : Except Failure Unit}

/-- In a chain that was started whole, the input behind a process that prints to a file is
closed. -/
theorem PipeTrace.close_mem (h : PipeTrace plan n es r) {ps : List LiveProcess}
    (hps : ps ∈ plan.tailChain n :: plan.groupChains n) (hw : Whole es ps) {p q : LiveProcess}
    (hpq : (p, q) ∈ ps.zip ps.tail) (hp : p.redirect ≠ .pipe) :
    .wired (.close q.seq) ∈ es := by
  have hmem : p ∈ ps := (List.of_mem_zip hpq).1
  have hnd : ((plan.tailChain n).map (·.seq)).Nodup := nodup_chain_seqs ..
  cases h with
  | refused hc =>
    rcases List.mem_cons.mp hps with rfl | hps
    · exact absurd hw (not_whole_refusal hnd hc _)
    · exact absurd (hw p hmem) (not_mem_started (PipePlan.started_refusal_lt hc _) hps hmem)
  | alone hg hc =>
    rcases List.mem_cons.mp hps with rfl | hps
    · rw [hc] at hpq
      have := close_mem_links hpq hp
      simp [this]
    · rw [PipePlan.groupChains, hg] at hps
      cases hps
  | fed hg hc hends hes =>
    obtain ⟨hhead, hpos, _⟩ := PipePlan.seq_of_tailChain hc
    rcases List.mem_cons.mp hps with rfl | hps
    · rw [hc] at hpq
      have := close_mem_links hpq hp
      simp [this]
    · rw [whole_fed, ← hc, whole_append_iff PipePlan.started_tail_lt hps] at hw
      have := hes.close_mem (by omega) hps hw hpq hp
      simp [this]

/-- The tail's input is closed once: after the last group, when only the tail is left to be
waited for. Without groups, or if the tail was not started whole, it is not closed. -/
theorem PipeTrace.close_cases (h : PipeTrace plan n es r) :
    (.wired (.close n) ∉ es ∧ (plan.groups ≠ [] → ¬ Whole es (plan.tailChain n))) ∨
    ∃ before after, es = before ++ .wired (.close n) :: after ∧
      .wired (.close n) ∉ before ∧ .wired (.close n) ∉ after ∧
      started after = [] ∧ feeds n after = [] ∧ awaited after = plan.tailChain n := by
  cases h with
  | refused hc =>
    exact .inl ⟨by simp [refusal], fun _ => not_whole_refusal (nodup_chain_seqs ..) hc _⟩
  | @alone first rest status ends hg hc hends =>
    refine .inl ⟨?_, fun hne => absurd hg hne⟩
    have hlinks : .close n ∉ links (first :: rest) :=
      close_notMem_links (PipePlan.seq_of_tailChain hc).2.2
    simp [finishes, hlinks, close_notMem_joins]
  | @fed head rest gs r ends hg hc hends hes =>
    obtain ⟨hhead, hpos, hrest⟩ := PipePlan.seq_of_tailChain hc
    have hlinks : .close n ∉ links (head :: rest) := close_notMem_links hrest
    have hgroups : .wired (.close n) ∉ gs := hes.close_notMem (by omega)
    have hjoins : into n joinFeeds (head :: rest) = [] := into_eq_nil hrest
    refine .inr ⟨(head :: rest).map .started ++ (links (head :: rest)).map .wired ++ gs,
      finishes ends ++ (joins (head :: rest)).map .wired, by rw [hhead]; simp, ?_, ?_, ?_, ?_, ?_⟩
    · simp [hlinks, hgroups]
    · simp [finishes, close_notMem_joins]
    · simp
    · simp [feeds_joins, hjoins]
    · rw [awaited_append, awaited_finishes, hends, hc]
      simp [awaited]

/-- Into the tail there are bridges only. -/
theorem PipeTrace.connect_notMem (h : PipeTrace plan n es r) (source : Nat) :
    .wired (.connect source n) ∉ es := by
  intro hm
  obtain ⟨runs, hf, hb⟩ := h.bridged
  have hopened : .opened source true ∈ runs.flatMap feedRun := by
    rw [← hf]
    exact List.mem_filterMap.mpr ⟨_, hm, by simp [Event.feed?]⟩
  obtain ⟨run, hrun, ho⟩ := List.mem_flatMap.mp hopened
  have hsome : run.2.isNone = false := hb.isNone_eq run hrun
  simp [feedRun, hsome] at ho

end Close

/-- How long the input of the first process of the tail, which has the number `n`, is open. -/
structure TailInput (plan : PipePlan) (n : Nat) (es : List Event) : Prop where
  /-- Until the run closes it, it is open for the groups that are to come, unless a bridge
  has failed. -/
  usable : ∀ before after, es = before ++ after → .wired (.close n) ∉ before →
    ∀ b, Execution before .initial b → (∀ l ∈ b.loops n, l.phase ≠ .failed) →
      b.shut n = false
  /-- The run closes it after the last group: from then on nothing is started, nothing is
  brought into the tail, and only the tail is waited for. -/
  closedLast : ∀ before after, es = before ++ .wired (.close n) :: after →
    started after = [] ∧ feeds n after = [] ∧ awaited after = plan.tailChain n

@[simp] theorem awaited_outline (es : List Event) : awaited (outline es) = awaited es :=
  filterMap_filter_of (fun e he => by cases e <;> first | rfl | cases he) es

theorem wired_mem_outline {action : Wiring} {es : List Event} :
    .wired action ∈ outline es ↔ .wired action ∈ es := by
  simp [outline, Event.isPreparation]

theorem PipeTrace.tailInput {plan : PipePlan} {n : Nat} {es : List Event}
    {r : Except Failure Unit} (h : PipeTrace plan n (outline es) r) : TailInput plan n es where
  usable := by
    rintro before after rfl hclose b hx hfail
    by_contra hshut
    -- neither the run nor a bridge has closed it, and there are no other loops into the tail
    obtain hm | ⟨l, hl, hs⟩ := (hx.isShut_iff n).mp (by simpa using hshut)
    · exact hclose hm
    · have hended : l.phase = .ended ∧ l.forGood = true := by
        simpa [CopyLoop.hasShut, hfail l hl] using hs
      obtain ⟨source, hsource⟩ := hx.connected (fun k hk => absurd hk List.not_mem_nil) hl hended.2
      exact h.connect_notMem source
        (wired_mem_outline.mpr (List.mem_append_left _ hsource))
  closedLast := by
    rintro before after rfl
    have ho : outline (before ++ .wired (.close n) :: after) =
        outline before ++ .wired (.close n) :: outline after := by
      rw [outline_append]
      rfl
    rw [ho] at h
    obtain ⟨hn, _⟩ | ⟨front, rear, hsplit, hf, hr, hstarted, hfeeds, hawaited⟩ := h.close_cases
    · exact absurd (List.mem_append_right _ List.mem_cons_self) hn
    · obtain ⟨rfl, _, rfl⟩ := (List.append_cons_inj_of_notMem hf hr).mp hsplit.symm
      rw [started_outline] at hstarted
      rw [feeds_outline] at hfeeds
      rw [awaited_outline] at hawaited
      exact ⟨hstarted, hfeeds, hawaited⟩

/-! ## The main result -/

/-- Where the bytes of a pipe have gone when its record is `es`. The first process of
the tail has the number `n`. -/
structure Routed (plan : PipePlan) (n : Nat) (es : List Event) (s : Piping) : Prop where
  /-- The tail receives what the groups print, in their order. -/
  delivered : s.received n <+: (sources es (plan.groupChains n)).flatMap fun p => s.printed p.seq
  /-- All of it, unless a bridge has failed. -/
  complete : (∀ l ∈ s.loops n, l.phase ≠ .failed) →
    s.received n = (sources es (plan.groupChains n)).flatMap fun p => s.printed p.seq
  /-- When a bridge has failed, the tail has what was printed before it and what the
  bridge gave, and nothing of what comes after. -/
  stopped : ∀ l ∈ s.loops n, l.phase = .failed →
    ∃ before p after, sources es (plan.groupChains n) = before ++ p :: after ∧
      l.source = p.seq ∧ l.given <+: s.printed p.seq ∧
      s.received n = (before.flatMap fun q => s.printed q.seq) ++ l.given
  /-- In the end the input of a tail that is fed by groups is closed. -/
  shut : plan.groups ≠ [] → Whole es (plan.tailChain n) → s.shut n = true
  /-- Inside a chain a process receives what its neighbour prints, all of it unless their
  loop has failed, and then its input is closed. -/
  linked : ∀ ps ∈ plan.tailChain n :: plan.groupChains n, Whole es ps →
    ∀ p q, (p, q) ∈ ps.zip ps.tail → p.redirect = .pipe →
      s.received q.seq <+: s.printed p.seq ∧
      ((∀ l ∈ s.loops q.seq, l.phase ≠ .failed) → s.received q.seq = s.printed p.seq) ∧
      s.shut q.seq = true
  /-- Behind a process that prints to a file there is nothing to receive; the input is
  closed. -/
  unlinked : ∀ ps ∈ plan.tailChain n :: plan.groupChains n, Whole es ps →
    ∀ p q, (p, q) ∈ ps.zip ps.tail → p.redirect ≠ .pipe →
      s.received q.seq = [] ∧ s.shut q.seq = true

/-- What the tail has received: all, if every bridge has ended well, or what came before
a bridge that failed, and what that one gave. -/
theorem Bridged.received {ps : List LiveProcess} {runs : List (Nat × Option Bool)} {n : Nat}
    {s : Piping} (hb : Bridged true ps runs) (hf : s.Fed n runs []) :
    (s.received n = (ps.flatMap fun p => s.printed p.seq) ∧
      ∀ l ∈ s.loops n, l.phase = .ended) ∨
    ∃ before p after old l, ps = before ++ p :: after ∧ s.loops n = old ++ [l] ∧
      (∀ k ∈ old, k.phase = .ended) ∧ l.source = p.seq ∧ l.phase = .failed ∧
      l.given <+: s.printed p.seq ∧
      s.received n = (before.flatMap fun q => s.printed q.seq) ++ l.given := by
  have well (qs : List LiveProcess) :
      ∀ r ∈ qs.map fun p => (p.seq, some true), r.2 = some true := by
    intro r hr
    obtain ⟨q, _, rfl⟩ := List.mem_map.mp hr
    rfl
  cases hb with
  | whole ps =>
    obtain ⟨hr, hl⟩ := hf.received_whole (well ps)
    exact .inl ⟨by rw [hr, List.flatMap_map], hl⟩
  | broken before p after =>
    obtain ⟨old, l, hl, hold, hsrc, hp, hg, hr⟩ := hf.received_failed (well before)
    exact .inr ⟨before, p, after, old, l, rfl, hl, hold, hsrc, hp, hg,
      by rw [hr, List.flatMap_map]⟩

@[simp] theorem whole_outline {es : List Event} {ps : List LiveProcess} :
    Whole (outline es) ps ↔ Whole es ps := by
  unfold Whole
  rw [started_outline]

section Routes

variable {plan : PipePlan} {n : Nat} {es : List Event} {r : Except Failure Unit} {s : Piping}

theorem PipeTrace.received (h : PipeTrace plan n (outline es) r) (hx : Execution es .initial s) :
    ∃ runs, s.Fed n runs [] ∧ Bridged true (sources es (plan.groupChains n)) runs := by
  obtain ⟨runs, hf, hb⟩ := h.bridged
  rw [feeds_outline] at hf
  rw [sources_congr fun _ _ => whole_outline] at hb
  exact ⟨runs, hx.fed hf, hb⟩

theorem PipeTrace.received_neighbour (h : PipeTrace plan n (outline es) r)
    (hx : Execution es .initial s) {ps : List LiveProcess}
    (hps : ps ∈ plan.tailChain n :: plan.groupChains n) (hw : Whole es ps) {p q : LiveProcess}
    (hpq : (p, q) ∈ ps.zip ps.tail) :
    s.Fed q.seq (if p.redirect = .pipe then [(p.seq, none)] else []) [] := by
  have hf := h.feeds_neighbour hps (whole_outline.mpr hw) hpq
  rw [feeds_outline, linkFeeds, joinFeeds] at hf
  split at hf
  next hp => exact hx.fed (by rw [hf, if_pos hp]; rfl)
  next hp => exact hx.fed (by rw [hf, if_neg hp]; rfl)

/-- The record of a pipe says where its bytes go. -/
theorem PipeTrace.routed (h : PipeTrace plan n (outline es) r) (hx : Execution es .initial s) :
    Routed plan n es s := by
  obtain ⟨runs, hf, hb⟩ := h.received hx
  -- either every bridge has ended well, or exactly the last one has failed
  have hrec := hb.received hf
  refine ⟨?_, ?_, ?_, ?_, ?_, ?_⟩
  · rcases hrec with ⟨hr, _⟩ | ⟨before, p, after, _, l, hsrc, _, _, _, _, hgiven, hr⟩
    · exact hr ▸ List.prefix_rfl
    · rw [hr, hsrc, List.flatMap_append, List.flatMap_cons, List.prefix_append_right_inj]
      exact hgiven.trans (List.prefix_append _ _)
  · intro hl
    rcases hrec with ⟨hr, _⟩ | ⟨_, _, _, old, l, _, hloops, _, _, hp, _⟩
    · exact hr
    · exact absurd hp (hl l (by simp [hloops]))
  · intro k hk hfail
    rcases hrec with ⟨_, hended⟩ | ⟨before, p, after, old, l, hsrc, hloops, hold, hl, _, hg, hr⟩
    · exact absurd (hended k hk) (by simp [hfail])
    · rw [hloops, List.mem_append, List.mem_singleton] at hk
      rcases hk with hk | rfl
      · exact absurd (hold k hk) (by simp [hfail])
      · exact ⟨before, p, after, hsrc, hl, hg, hr⟩
  · intro hne hw
    rw [hx.isShut_iff, ← wired_mem_outline]
    obtain ⟨_, hnot⟩ | ⟨front, rear, ho, _⟩ := h.close_cases
    · exact absurd (whole_outline.mpr hw) (hnot hne)
    · exact .inl (ho ▸ List.mem_append_right _ List.mem_cons_self)
  · intro ps hps hw p q hpq hp
    have hq := h.received_neighbour hx hps hw hpq
    rw [if_pos hp] at hq
    obtain ⟨hpre, hall, hshut⟩ := hq.received_joined
    exact ⟨hpre, hall, (hx.isShut_iff q.seq).mpr (.inr hshut)⟩
  · intro ps hps hw p q hpq hp
    have hq := h.received_neighbour hx hps hw hpq
    rw [if_neg hp] at hq
    have hc := h.close_mem hps (whole_outline.mpr hw) hpq hp
    exact ⟨hq.received_nil.1, (hx.isShut_iff q.seq).mpr (.inl (wired_mem_outline.mp hc))⟩

end Routes

/-- What goes through a pipe, on any machine, however the copy loops are scheduled and
whichever of them fail. The record is one that the machine has answered. -/
theorem runPipe_bytes {σ : Type} (setup : RunSetup σ) (plan : PipePlan)
    (hd : setup.dryRun = false) (ht : plan.tail ≠ []) (hg : ∀ group ∈ plan.groups, group ≠ [])
    (s : RunState σ) :
    ∃ es, ((Run.runPipe setup plan).result s).2.events = s.events ++ es ∧
      Replay setup es s.machine ((Run.runPipe setup plan).result s).2.machine ∧
      TailInput plan s.next es ∧ ∀ b, Execution es .initial b → Routed plan s.next es b := by
  obtain ⟨es, hes, hreplay, htr⟩ := Run.runPipe_recorded setup plan hd ht hg s
  exact ⟨es, hes, hreplay, htr.tailInput, fun b hx => htr.routed hx⟩

/-- One stage that feeds another. -/
def relayPlan : PipePlan where
  name := ⟨"relay", "pipe"⟩
  groups := [[sampleCommand "first"]]
  tail := [sampleCommand "join"]

/-- The record of the relay on a machine on which all goes well. -/
def relayRecord : List Event :=
  let w : Workspace := ⟨⟨"/work"⟩, ⟨"/work/logs"⟩, false⟩
  let join := (sampleCommand "join").process 1 .pipe .pipe .log
  let first := (sampleCommand "first").process 2 .pipe .empty .pipe
  [.logged 1 (w.diagnosticLog 1 "join"), .launched "join" [], .started join,
    .logged 2 (w.diagnosticLog 2 "first"), .launched "first" [], .started first,
    .wired (.bridge 2 1), .finished first (.known (.exited 0)), .drained 2 1 true, .wired (.close 1),
    .finished join (.known (.exited 0))]

/-- Two bytes go through the relay, in one chunk. -/
theorem relay_execution :
    ∃ b, Execution relayRecord .initial b ∧ b.received 1 = [104, 105] := by
  refine ⟨_, .event trivial <| .event trivial <| .event trivial <| .event trivial <|
    .event trivial <| .event trivial <| .event trivial <|
    .step (.print 2 [104, 105] rfl) <|
    .step (.copy 1 [] (.start 2 false) [] rfl (.read (by decide) List.prefix_rfl) nofun) <|
    .step (.copy 1 [] ⟨2, false, .writing, [], [104, 105] ++ []⟩ [] rfl .write nofun) <|
    .step (.copy 1 [] ⟨2, false, .writing, [104, 105], []⟩ [] rfl .written nofun) <|
    .step (.copy 1 [] ⟨2, false, .flushing, [104, 105], []⟩ [] rfl .flush nofun) <|
    .step (.close 2) <|
    .step (.copy 1 [] ⟨2, false, .reading, [104, 105], []⟩ [] rfl (.finish rfl) nofun) <|
    .event trivial <| .event ?_ <| .event trivial <| .event trivial .nil, rfl⟩
  intro l hl _
  obtain rfl : l = ⟨2, false, .ended, [104, 105], []⟩ := List.mem_singleton.mp hl
  rfl

/-- The relay receives what was printed. -/
theorem runPipe_bytes_relay :
    let s : RunState Unit := ⟨.empty, 1, (), []⟩
    let done := (Run.runPipe (sampleSetup [] []) relayPlan).result s
    done.2.events = s.events ++ relayRecord ∧
    Replay (sampleSetup [] []) relayRecord s.machine done.2.machine ∧
    TailInput relayPlan 1 relayRecord ∧
    ∃ b, Execution relayRecord .initial b ∧ b.received 1 = [104, 105] ∧
      Routed relayPlan 1 relayRecord b := by
  have hes : ((Run.runPipe (sampleSetup [] []) relayPlan).result
      ⟨.empty, 1, (), []⟩).2.events = relayRecord := by decide +kernel
  obtain ⟨es, hrecord, hreplay, htail, hrouted⟩ :=
    runPipe_bytes (sampleSetup [] []) relayPlan rfl (by decide) (by decide) ⟨.empty, 1, (), []⟩
  rw [hes] at hrecord
  obtain rfl : relayRecord = es := hrecord
  obtain ⟨b, hx, hb⟩ := relay_execution
  exact ⟨hes, hreplay, htail, b, hx, hb, hrouted b hx⟩

end MediaPipeline
