import MediaPipeline.Run.State
import Mathlib.Data.List.Forall2
import Mathlib.Logic.Function.Basic

/-!
# Copy loops

The bytes that one process of a pipe prints are copied to the input of another by a
loop that runs on its own: it reads a chunk, writes all of it, flushes, and starts
again, until the output has ended or an error stops it. `CopyLoop.Step` is one step
of a loop, `Piping.Step` one step of all loops and processes together, in any order.
`Execution` puts such steps between the recorded events of a run, which open loops
and wait for them.

A pipe of the operating system is taken to deliver the bytes that are written to it
in order, and to end when its writer has closed it.

A loop of a connection closes the input that it writes to when it is over; a bridge does
so only if it has failed. Nothing is written to an input that is closed.

The main results are `Execution.fed`, that if the loops into a process are opened one
after the other, each waited for before the next, then the process receives what the
loops gave, in that order; and `Execution.isShut_iff`, that an input is closed by the run
or by a loop that is over, and by nothing else.
-/

namespace MediaPipeline

/-! ## One loop -/

/-- What a copy loop is about to do. -/
inductive CopyPhase where
  | reading
  | writing
  | flushing
  /-- The output has ended, and all of it was copied. -/
  | ended
  /-- A read, a write or a flush has failed; both ends are closed. -/
  | failed
deriving DecidableEq

/-- A loop that copies what the process `source` prints. -/
structure CopyLoop where
  source : Nat
  /-- Whether the loop closes the input when the output has ended. -/
  forGood : Bool
  phase : CopyPhase
  /-- What was written so far. -/
  given : List UInt8
  /-- What was read but is not written yet. -/
  pending : List UInt8
deriving DecidableEq

namespace CopyLoop

/-- A loop that has not read anything. -/
def start (source : Nat) (forGood : Bool) : CopyLoop := ⟨source, forGood, .reading, [], []⟩

/-- Whether a loop does nothing any more. -/
def IsOver (l : CopyLoop) : Prop := l.phase = .ended ∨ l.phase = .failed

/-- Whether a loop has closed the input that it writes to. -/
def hasShut (l : CopyLoop) : Bool :=
  l.phase = .failed || (l.phase = .ended && l.forGood)

/-- One step of a loop, of which the source has printed `printed` so far and prints
nothing more if `closed`; the step writes `out`. -/
inductive Step (printed : List UInt8) (closed : Bool) :
    CopyLoop → List UInt8 → CopyLoop → Prop where
  | read {source : Nat} {forGood : Bool} {given chunk : List UInt8} (hne : chunk ≠ [])
      (hp : given ++ chunk <+: printed) :
      Step printed closed ⟨source, forGood, .reading, given, []⟩ []
        ⟨source, forGood, .writing, given, chunk⟩
  /-- Some of the chunk is written. -/
  | write {source : Nat} {forGood : Bool} {given out rest : List UInt8} :
      Step printed closed ⟨source, forGood, .writing, given, out ++ rest⟩ out
        ⟨source, forGood, .writing, given ++ out, rest⟩
  /-- All of the chunk is written. -/
  | written {source : Nat} {forGood : Bool} {given : List UInt8} :
      Step printed closed ⟨source, forGood, .writing, given, []⟩ []
        ⟨source, forGood, .flushing, given, []⟩
  | flush {source : Nat} {forGood : Bool} {given : List UInt8} :
      Step printed closed ⟨source, forGood, .flushing, given, []⟩ []
        ⟨source, forGood, .reading, given, []⟩
  /-- The output has ended. -/
  | finish {source : Nat} {forGood : Bool} (hc : closed = true) :
      Step printed closed ⟨source, forGood, .reading, printed, []⟩ []
        ⟨source, forGood, .ended, printed, []⟩
  /-- A read, a write or a flush fails. -/
  | fail {source : Nat} {forGood : Bool} {phase : CopyPhase} {given pending : List UInt8}
      (hp : phase = .reading ∨ phase = .writing ∨ phase = .flushing) :
      Step printed closed ⟨source, forGood, phase, given, pending⟩ []
        ⟨source, forGood, .failed, given, pending⟩

/-- A loop has taken the bytes that it has written, and those it has yet to write, from
the front of what its source printed; it ends when there is no more. -/
structure Sound (printed : List UInt8) (closed : Bool) (l : CopyLoop) : Prop where
  taken : l.given ++ l.pending <+: printed
  ended : l.phase = .ended → l.given = printed ∧ closed = true

variable {printed out : List UInt8} {closed : Bool} {l m : CopyLoop}

theorem Sound.start (source : Nat) (forGood : Bool) :
    Sound printed closed (start source forGood) where
  taken := List.nil_prefix
  ended h := by cases h

theorem Sound.given_isPrefix (h : Sound printed closed l) : l.given <+: printed :=
  (List.prefix_append _ _).trans h.taken

/-- A source that prints more does not disturb its loop. -/
theorem Sound.print (h : Sound printed false l) (more : List UInt8) :
    Sound (printed ++ more) false l :=
  ⟨h.taken.trans (List.prefix_append _ _), fun he => by cases (h.ended he).2⟩

theorem Sound.close (h : Sound printed closed l) : Sound printed true l :=
  ⟨h.taken, fun he => ⟨(h.ended he).1, rfl⟩⟩

theorem Sound.step (h : Sound printed closed l) (hs : Step printed closed l out m) :
    Sound printed closed m := by
  cases hs with
  | read _ hp => exact ⟨hp, fun he => by cases he⟩
  | write => exact ⟨by simpa using h.taken, fun he => by cases he⟩
  | written => exact ⟨h.taken, fun he => by cases he⟩
  | flush => exact ⟨h.taken, fun he => by cases he⟩
  | finish hc => exact ⟨h.taken, fun _ => ⟨rfl, hc⟩⟩
  | fail _ => exact ⟨h.taken, fun he => by cases he⟩

theorem Step.source_eq (hs : Step printed closed l out m) : m.source = l.source := by
  cases hs <;> rfl

theorem Step.forGood_eq (hs : Step printed closed l out m) : m.forGood = l.forGood := by
  cases hs <;> rfl

theorem Step.given_eq (hs : Step printed closed l out m) : m.given = l.given ++ out := by
  cases hs <;> simp

theorem Step.not_isOver (hs : Step printed closed l out m) : ¬ l.IsOver := by
  cases hs with
  | fail hp => rcases hp with rfl | rfl | rfl <;> simp [IsOver]
  | _ => simp [IsOver]

theorem isOver_of_hasShut (h : l.hasShut = true) : l.IsOver := by
  simp only [hasShut, Bool.or_eq_true, Bool.and_eq_true, decide_eq_true_eq] at h
  exact h.symm.imp_left And.left

theorem Step.hasShut_eq (hs : Step printed closed l out m) : l.hasShut = false :=
  Bool.eq_false_iff.mpr fun h => hs.not_isOver (isOver_of_hasShut h)

theorem hasShut_of_isOver (h : l.IsOver) (hg : l.forGood = true) : l.hasShut = true := by
  rcases h with h | h <;> simp [hasShut, h, hg]

end CopyLoop

/-! ## All loops of a pipe -/

/-- The bytes on their way through a pipe. Processes are known by their numbers. -/
structure Piping where
  /-- What a process has printed for others to read. -/
  printed : Nat → List UInt8
  /-- Whether a process prints nothing more. -/
  closed : Nat → Bool
  /-- What was written to the input of a process. -/
  received : Nat → List UInt8
  /-- Whether the input of a process is closed. -/
  shut : Nat → Bool
  /-- The loops into a process, in the order in which they were opened. -/
  loops : Nat → List CopyLoop

namespace Piping

/-- Nothing was printed yet, all inputs are open, and there are no loops. -/
def initial : Piping :=
  ⟨fun _ => [], fun _ => false, fun _ => [], fun _ => false, fun _ => []⟩

/-- Some process prints something or ends, or some loop makes a step. -/
inductive Step : Piping → Piping → Prop where
  | print {s : Piping} (source : Nat) (more : List UInt8) (hc : s.closed source = false) :
      Step s { s with printed := Function.update s.printed source (s.printed source ++ more) }
  | close {s : Piping} (source : Nat) :
      Step s { s with closed := Function.update s.closed source true }
  | copy {s : Piping} (target : Nat) (before : List CopyLoop) (l : CopyLoop)
      (after : List CopyLoop) {m : CopyLoop} {out : List UInt8}
      (hl : s.loops target = before ++ l :: after)
      (hs : CopyLoop.Step (s.printed l.source) (s.closed l.source) l out m)
      (ho : s.shut target = true → out = []) :
      Step s { s with
        received := Function.update s.received target (s.received target ++ out)
        shut := Function.update s.shut target (s.shut target || m.hasShut)
        loops := Function.update s.loops target (before ++ m :: after) }

/-- A loop from `source` to `target` is opened. -/
def connect (s : Piping) (source target : Nat) (forGood : Bool) : Piping :=
  { s with loops := Function.update s.loops target (s.loops target ++ [.start source forGood]) }

/-- The input of `target` is closed. -/
def close (s : Piping) (target : Nat) : Piping :=
  { s with shut := Function.update s.shut target true }

/-- What an event of a run does to the loops and inputs. -/
def after (s : Piping) : Event → Piping
  | .wired (.connect source target) => s.connect source target true
  | .wired (.bridge source target) => s.connect source target false
  | .wired (.close target) => s.close target
  | _ => s

/-- When an event can happen: a run that has waited for a loop goes on when the loop is
over, and knows of a bridge whether it has failed. -/
def Allows (s : Piping) : Event → Prop
  | .wired (.join source target) => ∀ l ∈ s.loops target, l.source = source → l.IsOver
  | .drained source target inputOpen => ∀ l ∈ s.loops target, l.source = source →
      l.phase = if inputOpen then .ended else .failed
  | _ => True

end Piping

/-- The events of a run happen in order, and between them the loops and processes make
any steps they can. -/
inductive Execution : List Event → Piping → Piping → Prop where
  | nil {s : Piping} : Execution [] s s
  | step {es : List Event} {s t u : Piping} (hs : s.Step t) (h : Execution es t u) :
      Execution es s u
  | event {e : Event} {es : List Event} {s t : Piping} (ha : s.Allows e)
      (h : Execution es (s.after e) t) : Execution (e :: es) s t

/-! ## The loops into one process -/

/-- Something that is done with the loops into a process. -/
inductive Feed where
  | opened (source : Nat) (forGood : Bool)
  /-- The loop is over; with a bridge it is known whether it has ended well. -/
  | over (source : Nat) (well : Option Bool)
deriving DecidableEq

/-- What an event does with the loops into `target`. -/
def Event.feed? (target : Nat) : Event → Option Feed
  | .wired (.connect source t) => if t = target then some (.opened source true) else none
  | .wired (.bridge source t) => if t = target then some (.opened source false) else none
  | .wired (.join source t) => if t = target then some (.over source none) else none
  | .drained source t inputOpen =>
    if t = target then some (.over source (some inputOpen)) else none
  | _ => none

theorem Event.feed?_eq_opened {e : Event} {target source : Nat} {forGood : Bool}
    (h : e.feed? target = some (.opened source forGood)) :
    (e = .wired (.connect source target) ∧ forGood = true) ∨
    (e = .wired (.bridge source target) ∧ forGood = false) := by
  cases e with
  | wired action => cases action <;> simp_all [Event.feed?]
  | drained => simp [Event.feed?] at h
  | _ => cases h

theorem Event.feed?_eq_over {e : Event} {target source : Nat} {well : Option Bool}
    (h : e.feed? target = some (.over source well)) :
    (e = .wired (.join source target) ∧ well = none) ∨
    ∃ inputOpen, e = .drained source target inputOpen ∧ well = some inputOpen := by
  cases e with
  | wired action => cases action <;> simp_all [Event.feed?]
  | drained => simp_all [Event.feed?]
  | _ => cases h

/-- What a record says about the loops into `target`. -/
def feeds (target : Nat) (es : List Event) : List Feed := es.filterMap (Event.feed? target)

@[simp] theorem feeds_append (target : Nat) (es fs : List Event) :
    feeds target (es ++ fs) = feeds target es ++ feeds target fs := List.filterMap_append ..

/-- A loop that is opened and then waited for. Of a connection it is not known how it has
ended. -/
def feedRun (run : Nat × Option Bool) : List Feed :=
  [.opened run.1 run.2.isNone, .over run.1 run.2]

/-- A loop that has gone as a record says. -/
structure CopyLoop.Went (l : CopyLoop) (run : Nat × Option Bool) : Prop where
  source : l.source = run.1
  forGood : l.forGood = run.2.isNone
  isOver : l.IsOver
  phase : ∀ well, run.2 = some well → l.phase = if well then .ended else .failed

/-- The loops into `target` that are over have gone as in `runs`, and `live` is what
else there is; the process has received what all of them gave. -/
structure Piping.Fed (s : Piping) (target : Nat) (runs : List (Nat × Option Bool))
    (live : List CopyLoop) : Prop where
  loops : ∃ old, s.loops target = old ++ live ∧ List.Forall₂ CopyLoop.Went old runs
  received : s.received target = (s.loops target).flatMap (·.given)
  sound : ∀ l ∈ s.loops target, l.Sound (s.printed l.source) (s.closed l.source)

namespace Piping.Fed

variable {s t : Piping} {target : Nat} {runs : List (Nat × Option Bool)} {live : List CopyLoop}

theorem initial (target : Nat) : initial.Fed target [] [] :=
  ⟨⟨[], rfl, .nil⟩, rfl, fun _ h => absurd h List.not_mem_nil⟩

theorem went_isOver {old : List CopyLoop} (h : List.Forall₂ CopyLoop.Went old runs) :
    ∀ l ∈ old, l.IsOver := by
  induction h with
  | nil => exact fun _ h => absurd h List.not_mem_nil
  | cons hw _ ih => exact List.forall_mem_cons.mpr ⟨hw.isOver, ih⟩

/-- A loop that is not over is the live one. -/
theorem live_eq {old before after : List CopyLoop} {l : CopyLoop}
    (hl : before ++ l :: after = old ++ live) (hold : ∀ k ∈ old, k.IsOver)
    (hlen : live.length ≤ 1) (hn : ¬ l.IsOver) : before = old ∧ live = [l] ∧ after = [] := by
  -- `l` stands where the old loops end, before that, or after that
  rcases List.append_eq_append_iff.mp hl with ⟨more, hb, ha⟩ | ⟨more, hb, ha⟩
  · cases more with
    | nil =>
      rw [List.append_nil] at hb
      rw [List.nil_append] at ha
      rw [← ha, List.length_cons] at hlen
      have : after = [] := List.length_eq_zero_iff.mp (by omega)
      exact ⟨hb.symm, by rw [← ha, this], this⟩
    | cons k more =>
      obtain ⟨rfl, _⟩ := List.cons.inj ha
      exact absurd (hold l (by simp [hb])) hn
  · have hlen' := congrArg List.length ha
    rw [List.length_append, List.length_cons] at hlen'
    have hm : more = [] := List.length_eq_zero_iff.mp (by omega)
    have : after = [] := List.length_eq_zero_iff.mp (by omega)
    subst hm this
    exact ⟨by simpa using hb, by simpa using ha, rfl⟩

/-- Only a live loop can make a step, and there is at most one. -/
theorem step (h : s.Fed target runs live) (hlen : live.length ≤ 1) (hs : s.Step t) :
    ∃ live', live'.map (fun l => (l.source, l.forGood)) =
        live.map (fun l => (l.source, l.forGood)) ∧ t.Fed target runs live' := by
  obtain ⟨⟨old, hold, hw⟩, hr, hd⟩ := h
  cases hs with
  | print source more hc =>
    refine ⟨live, rfl, ⟨old, hold, hw⟩, hr, fun l hl => ?_⟩
    by_cases he : l.source = source
    · have hl := hd l hl
      simp only [he, hc, Function.update_self] at hl ⊢
      exact hl.print more
    · simpa only [Function.update_of_ne he] using hd l hl
  | close source =>
    refine ⟨live, rfl, ⟨old, hold, hw⟩, hr, fun l hl => ?_⟩
    by_cases he : l.source = source
    · simpa only [he, Function.update_self] using (hd l hl).close
    · simpa only [Function.update_of_ne he] using hd l hl
  | @copy place before l after m out hl hc ho =>
    by_cases hp : place = target
    · subst hp
      -- a loop that makes a step is not over, so it is the live one
      obtain ⟨rfl, rfl, rfl⟩ := live_eq (hl.symm.trans hold) (went_isOver hw) hlen hc.not_isOver
      refine ⟨[m], by simp [hc.source_eq, hc.forGood_eq], ⟨before, by simp, hw⟩, ?_, ?_⟩
      · simp [hr, hl, hc.given_eq]
      · intro k hk
        simp only [Function.update_self, List.mem_append, List.mem_singleton] at hk
        rcases hk with hk | rfl
        · exact hd k (by simp [hl, hk])
        · rw [hc.source_eq]
          exact (hd l (by simp [hl])).step hc
    · have hne : target ≠ place := Ne.symm hp
      exact ⟨live, rfl, ⟨old, by simpa [hne] using hold, hw⟩, by simpa [hne] using hr,
        by simpa [hne] using hd⟩

/-- An event that does nothing with the loops into `target` leaves them alone. -/
theorem after_other (h : s.Fed target runs live) {e : Event} (he : e.feed? target = none) :
    (s.after e).Fed target runs live := by
  have hc (source u : Nat) (g : Bool) (hu : u ≠ target) :
      (s.connect source u g).Fed target runs live := by
    obtain ⟨⟨old, hold, hw⟩, hr, hd⟩ := h
    have hne : target ≠ u := Ne.symm hu
    exact ⟨⟨old, by simpa [connect, hne] using hold, hw⟩, by simpa [connect, hne] using hr,
      by simpa [connect, hne] using hd⟩
  cases e with
  | wired action =>
    cases action with
    | connect source u => exact hc source u true fun hu => by simp [Event.feed?, hu] at he
    | bridge source u => exact hc source u false fun hu => by simp [Event.feed?, hu] at he
    | close u => exact ⟨h.loops, h.received, h.sound⟩
    | join | discard => exact h
  | _ => exact h

/-- A loop is opened when no other is live. -/
theorem after_opened (h : s.Fed target runs []) {e : Event} {source : Nat} {g : Bool}
    (he : e.feed? target = some (.opened source g)) :
    (s.after e).Fed target runs [.start source g] := by
  have hc : (s.connect source target g).Fed target runs [.start source g] := by
    obtain ⟨⟨old, hold, hw⟩, hr, hd⟩ := h
    refine ⟨⟨old, by simp [connect, hold], hw⟩, by simp [connect, hr, CopyLoop.start], ?_⟩
    intro l hl
    simp only [connect, Function.update_self, List.mem_append, List.mem_singleton] at hl
    rcases hl with hl | rfl
    · exact hd l hl
    · exact .start source g
  rcases Event.feed?_eq_opened he with ⟨rfl, rfl⟩ | ⟨rfl, rfl⟩
  · exact hc
  · exact hc

/-- A run that has waited for the live loop knows how it went. -/
theorem after_over {l : CopyLoop} {well : Option Bool} (h : s.Fed target runs [l])
    (hg : l.forGood = well.isNone) {e : Event} (ha : s.Allows e)
    (he : e.feed? target = some (.over l.source well)) :
    (s.after e).Fed target (runs ++ [(l.source, well)]) [] := by
  obtain ⟨⟨old, hold, hw⟩, hr, hd⟩ := h
  have hl : l ∈ s.loops target := by simp [hold]
  have went (hg : l.Went (l.source, well)) : s.Fed target (runs ++ [(l.source, well)]) [] :=
    ⟨⟨old ++ [l], by simp [hold], List.rel_append hw (.cons hg .nil)⟩, hr, hd⟩
  rcases Event.feed?_eq_over he with ⟨rfl, rfl⟩ | ⟨inputOpen, rfl, rfl⟩
  · exact went ⟨rfl, hg, ha l hl rfl, fun _ h => by cases h⟩
  · have hp : l.phase = if inputOpen then .ended else .failed := ha l hl rfl
    refine went ⟨rfl, hg, ?_, fun _ h => by cases h; exact hp⟩
    cases inputOpen with
    | true => exact .inl hp
    | false => exact .inr hp

end Piping.Fed

theorem feeds_cons_none {target : Nat} {e : Event} (h : e.feed? target = none)
    (es : List Event) : feeds target (e :: es) = feeds target es :=
  List.filterMap_cons_none h

theorem feeds_cons_some {target : Nat} {e : Event} {f : Feed} (h : e.feed? target = some f)
    (es : List Event) : feeds target (e :: es) = f :: feeds target es :=
  List.filterMap_cons_some h

/-- The induction is on the execution. The second part is for the time between the
opening of a loop and the end of the wait for it. -/
theorem Execution.fed_and_live {es : List Event} {s t : Piping} (h : Execution es s t)
    (target : Nat) :
    (∀ done runs, s.Fed target done [] → feeds target es = runs.flatMap feedRun →
      t.Fed target (done ++ runs) []) ∧
    ∀ done runs l well, s.Fed target done [l] → l.forGood = well.isNone →
      feeds target es = .over l.source well :: runs.flatMap feedRun →
      t.Fed target (done ++ (l.source, well) :: runs) [] := by
  induction h with
  | nil =>
    refine ⟨fun done runs hs hf => ?_, fun done runs l well hs _ hf => by cases hf⟩
    cases runs with
    | nil => rwa [List.append_nil]
    | cons r runs => cases hf
  | step hs _ ih =>
    refine ⟨fun done runs hd hf => ?_, fun done runs l well hd hg hf => ?_⟩
    · obtain ⟨live, hl, hd⟩ := hd.step (Nat.zero_le _) hs
      obtain rfl : live = [] := List.map_eq_nil_iff.mp hl
      exact ih.1 done runs hd hf
    · obtain ⟨live, hl, hd⟩ := hd.step (Nat.le_refl _) hs
      obtain ⟨m, rfl, hm⟩ := List.map_eq_singleton_iff.mp hl
      obtain ⟨hsource, hgood⟩ := Prod.ext_iff.mp hm
      replace hsource : m.source = l.source := hsource
      rw [← hsource] at hf ⊢
      exact ih.2 done runs m well hd (hgood.trans hg) hf
  | @event e es s t ha _ ih =>
    cases he : e.feed? target with
    | none =>
      rw [feeds_cons_none he]
      exact ⟨fun done runs hd => ih.1 done runs (hd.after_other he),
        fun done runs l well hd hg => ih.2 done runs l well (hd.after_other he) hg⟩
    | some f =>
      rw [feeds_cons_some he]
      refine ⟨fun done runs hd hf => ?_, fun done runs l well hd hg hf => ?_⟩
      · cases runs with
        | nil => cases hf
        | cons r runs =>
          obtain ⟨rfl, hrest⟩ := List.cons.inj hf
          exact ih.2 done runs (.start r.1 r.2.isNone) r.2 (hd.after_opened he) rfl hrest
      · obtain ⟨rfl, hrest⟩ := List.cons.inj hf
        have hd := ih.1 _ runs (hd.after_over hg ha he) hrest
        rwa [List.append_assoc] at hd

/-- If the loops into a process are opened one after the other, each waited for before
the next, then they all are over in the end, and the process has received what they
gave, in that order. -/
theorem Execution.fed {es : List Event} {t : Piping} (h : Execution es .initial t)
    {target : Nat} {runs : List (Nat × Option Bool)}
    (hf : feeds target es = runs.flatMap feedRun) : t.Fed target runs [] :=
  (h.fed_and_live target).1 [] runs (.initial target) hf

/-! ## Inputs that are closed -/

/-- The input of `target` is closed if the run has closed it, as `byRun` says, or a loop has,
and otherwise it is open. -/
def Piping.ShutBy (s : Piping) (target : Nat) (byRun : Prop) : Prop :=
  s.shut target = true ↔ byRun ∨ ∃ l ∈ s.loops target, l.hasShut = true

namespace Piping.ShutBy

variable {s t : Piping} {target : Nat} {byRun : Prop}

theorem initial (target : Nat) : initial.ShutBy target False := by
  simp [ShutBy, Piping.initial]

theorem step (h : s.ShutBy target byRun) (hs : s.Step t) : t.ShutBy target byRun := by
  cases hs with
  | print | close => exact h
  | @copy place before l after m out hl hc ho =>
    by_cases hp : place = target
    · subst hp
      -- the loop that makes the step has closed nothing before it
      have hold : l.hasShut = false := hc.hasShut_eq
      unfold ShutBy at h ⊢
      simp only [hl, List.mem_append, List.mem_cons, or_and_right, exists_or, exists_eq_left,
        hold, Bool.false_eq_true, false_or, Function.update_self, Bool.or_eq_true] at h ⊢
      rw [h, or_assoc, or_assoc]
      exact or_congr_right (or_congr_right or_comm)
    · have hne : target ≠ place := Ne.symm hp
      unfold ShutBy at h ⊢
      simpa only [Function.update_of_ne hne] using h

theorem connect (h : s.ShutBy target byRun) (source place : Nat) (g : Bool) :
    (s.connect source place g).ShutBy target byRun := by
  unfold ShutBy at h ⊢
  by_cases hp : target = place
  · subst hp
    simpa [Piping.connect, or_and_right, exists_or, CopyLoop.start, CopyLoop.hasShut] using h
  · simpa only [Piping.connect, Function.update_of_ne hp] using h

theorem after (h : s.ShutBy target byRun) (e : Event) :
    (s.after e).ShutBy target (byRun ∨ e = .wired (.close target)) := by
  have other (hne : e ≠ .wired (.close target)) (ht : (s.after e).ShutBy target byRun) :
      (s.after e).ShutBy target (byRun ∨ e = .wired (.close target)) := by
    simpa only [hne, or_false] using ht
  cases e with
  | wired action =>
    cases action with
    | close place =>
      by_cases hp : target = place
      · subst hp
        simp [ShutBy, Piping.after, Piping.close]
      · refine other (by simp [Ne.symm hp]) ?_
        unfold ShutBy at h ⊢
        simpa only [Piping.after, Piping.close, Function.update_of_ne hp] using h
    | connect source place => exact other (by simp) (h.connect source place true)
    | bridge source place => exact other (by simp) (h.connect source place false)
    | join | discard => exact other (by simp) h
  | _ => exact other (by simp) h

end Piping.ShutBy

theorem Execution.shutBy {es : List Event} {s t : Piping} (h : Execution es s t) {target : Nat}
    {byRun : Prop} (hs : s.ShutBy target byRun) :
    t.ShutBy target (byRun ∨ .wired (.close target) ∈ es) := by
  induction h generalizing byRun with
  | nil => simpa using hs
  | step hstep _ ih => exact ih (hs.step hstep)
  | @event e es s t _ _ ih =>
    simpa only [List.mem_cons, or_assoc, eq_comm] using ih (hs.after e)

/-- An input is closed if the run has closed it, or a loop into it is over that does so,
and in no other case. -/
theorem Execution.isShut_iff {es : List Event} {t : Piping} (h : Execution es .initial t)
    (target : Nat) :
    t.shut target = true ↔
      .wired (.close target) ∈ es ∨ ∃ l ∈ t.loops target, l.hasShut = true := by
  simpa only [Piping.ShutBy, false_or] using h.shutBy (.initial target)

/-- A loop that closes its input when the output has ended is that of a connection. -/
theorem Execution.connected {es : List Event} {s t : Piping} (h : Execution es s t)
    {target : Nat} (hs : ∀ l ∈ s.loops target, l.forGood = false) {l : CopyLoop}
    (hl : l ∈ t.loops target) (hg : l.forGood = true) :
    ∃ source, .wired (.connect source target) ∈ es := by
  induction h with
  | nil =>
    rw [hs l hl] at hg
    cases hg
  | step hstep _ ih =>
    refine ih ?_ hl
    cases hstep with
    | print | close => exact hs
    | @copy place before k after m out hk hc ho =>
      by_cases hp : place = target
      · subst hp
        simp only [hk, List.forall_mem_append, List.forall_mem_cons] at hs
        simp only [Function.update_self, List.forall_mem_append, List.forall_mem_cons]
        exact ⟨hs.1, hc.forGood_eq.trans hs.2.1, hs.2.2⟩
      · simpa only [Function.update_of_ne (Ne.symm hp)] using hs
  | @event e es s t _ _ ih =>
    have later (ht : ∀ k ∈ (s.after e).loops target, k.forGood = false) :
        ∃ source, .wired (.connect source target) ∈ e :: es := by
      obtain ⟨source, hsource⟩ := ih ht hl
      exact ⟨source, List.mem_cons_of_mem _ hsource⟩
    have new (source place : Nat) (g : Bool) (ht : target = place → g = false) :
        ∀ k ∈ (s.connect source place g).loops target, k.forGood = false := by
      by_cases hp : target = place
      · subst hp
        simpa [Piping.connect, or_imp, forall_and, CopyLoop.start] using ⟨hs, ht rfl⟩
      · simpa only [Piping.connect, Function.update_of_ne hp] using hs
    cases e with
    | wired action =>
      cases action with
      | connect source place =>
        by_cases hp : target = place
        · exact ⟨source, by simp [hp]⟩
        · exact later (new source place true fun h => absurd h hp)
      | bridge source place => exact later (new source place false fun _ => rfl)
      | close | join | discard => exact later hs
    | _ => exact later hs

/-! ## What a process has received -/

namespace Piping.Fed

variable {s : Piping} {target source : Nat} {runs : List (Nat × Option Bool)}

theorem given_eq (hw : ∀ l, l ∈ s.loops target → l.Sound (s.printed l.source) (s.closed l.source))
    {old : List CopyLoop} (hold : ∀ l ∈ old, l ∈ s.loops target)
    (h : List.Forall₂ CopyLoop.Went old runs) (hr : ∀ r ∈ runs, r.2 = some true) :
    old.flatMap (·.given) = runs.flatMap fun r => s.printed r.1 := by
  induction h with
  | nil => rfl
  | @cons l r old runs hg _ ih =>
    obtain ⟨hl, hold⟩ := List.forall_mem_cons.mp hold
    obtain ⟨hr, hrs⟩ := List.forall_mem_cons.mp hr
    have he : l.given = s.printed l.source := ((hw l hl).ended (hg.phase true hr)).1
    rw [List.flatMap_cons, List.flatMap_cons, ih hold hrs, he, hg.source]

theorem went_ended {old : List CopyLoop} (h : List.Forall₂ CopyLoop.Went old runs)
    (hr : ∀ r ∈ runs, r.2 = some true) : ∀ l ∈ old, l.phase = .ended := by
  induction h with
  | nil => exact fun _ h => absurd h List.not_mem_nil
  | cons hg _ ih =>
    obtain ⟨hr, hrs⟩ := List.forall_mem_cons.mp hr
    exact List.forall_mem_cons.mpr ⟨hg.phase true hr, ih hrs⟩

theorem went_concat {all : List CopyLoop} {r : Nat × Option Bool}
    (h : List.Forall₂ CopyLoop.Went all (runs ++ [r])) :
    ∃ old l, all = old ++ [l] ∧ List.Forall₂ CopyLoop.Went old runs ∧ l.Went r := by
  induction runs generalizing all with
  | nil =>
    obtain ⟨l, rest, hl, hrest, rfl⟩ := List.forall₂_cons_right_iff.mp h
    cases hrest
    exact ⟨[], l, rfl, .nil, hl⟩
  | cons q runs ih =>
    obtain ⟨k, rest, hk, hrest, rfl⟩ := List.forall₂_cons_right_iff.mp h
    obtain ⟨old, l, rfl, hold, hl⟩ := ih hrest
    exact ⟨k :: old, l, rfl, .cons hk hold, hl⟩

/-- Without loops nothing is received. -/
theorem received_nil (h : s.Fed target [] []) : s.received target = [] ∧ s.loops target = [] := by
  obtain ⟨⟨old, hold, hw⟩, hr, _⟩ := h
  cases hw
  exact ⟨by simp [hr, hold], hold⟩

/-- If every loop has ended well, everything was received. -/
theorem received_whole (h : s.Fed target runs []) (hr : ∀ r ∈ runs, r.2 = some true) :
    s.received target = (runs.flatMap fun r => s.printed r.1) ∧
      ∀ l ∈ s.loops target, l.phase = .ended := by
  obtain ⟨⟨old, hold, hw⟩, hrec, hd⟩ := h
  rw [List.append_nil] at hold
  rw [hrec, hold]
  exact ⟨given_eq hd (fun l hl => hold ▸ hl) hw hr, went_ended hw hr⟩

/-- If the last loop has failed, everything before it was received, and some of what it
had to copy. -/
theorem received_failed (h : s.Fed target (runs ++ [(source, some false)]) [])
    (hr : ∀ r ∈ runs, r.2 = some true) :
    ∃ old l, s.loops target = old ++ [l] ∧ (∀ k ∈ old, k.phase = .ended) ∧
      l.source = source ∧ l.phase = .failed ∧ l.given <+: s.printed source ∧
      s.received target = (runs.flatMap fun r => s.printed r.1) ++ l.given := by
  obtain ⟨⟨all, hall, hw⟩, hrec, hd⟩ := h
  rw [List.append_nil] at hall
  obtain ⟨old, l, rfl, hold, hl⟩ := went_concat hw
  have hlm : l ∈ s.loops target := by simp [hall]
  refine ⟨old, l, hall, went_ended hold hr, hl.source, hl.phase false rfl, ?_, ?_⟩
  · have hg := (hd l hlm).given_isPrefix
    rwa [hl.source] at hg
  · rw [hrec, hall, List.flatMap_append,
      given_eq hd (fun k hk => hall ▸ List.mem_append_left _ hk) hold hr]
    simp

/-- If the only loop is that of a connection and was waited for, some of what it had to copy
was received, and all of it unless it has failed; it has closed the input. -/
theorem received_joined (h : s.Fed target [(source, none)] []) :
    s.received target <+: s.printed source ∧
      ((∀ l ∈ s.loops target, l.phase ≠ .failed) → s.received target = s.printed source) ∧
      ∃ l ∈ s.loops target, l.hasShut = true := by
  obtain ⟨⟨all, hall, hw⟩, hrec, hd⟩ := h
  rw [List.append_nil] at hall
  obtain ⟨l, rest, hl, hrest, rfl⟩ := List.forall₂_cons_right_iff.mp hw
  cases hrest
  have hlm : l ∈ s.loops target := by simp [hall]
  have hs : l.Sound (s.printed source) (s.closed source) := by
    have hs := hd l hlm
    rwa [hl.source] at hs
  have hg : s.received target = l.given := by simp [hrec, hall]
  refine ⟨hg ▸ hs.given_isPrefix, fun hf => ?_, l, hlm,
    CopyLoop.hasShut_of_isOver hl.isOver hl.forGood⟩
  rcases hl.isOver with he | he
  · rw [hg, (hs.ended he).1]
  · exact absurd he (hf l hlm)

end Piping.Fed

end MediaPipeline
