import MediaPipeline.Proofs.CleanupCoverage
import MediaPipeline.Proofs.StraightPaths

/-!
# How far a clean-up goes

A clean-up deletes what flagged parameters name, one path after the other. Paths may coincide
or lie below one another in any order, so a removal can make a later path one that is missing.
`perform_sweeps` says what holds all the same: nothing is touched that is not at or below one
of the paths, what was not refused is gone with everything below it, each path is counted
once, and a second clean-up finds nothing left to remove.
-/

namespace MediaPipeline

namespace Cleanup

/-! ## Counting -/

section Count

variable {σ : Type} {host : Host σ}

/-- How many paths a report counts. -/
def total (report : CleanupReport) : Nat := report.removed + report.missing + report.failed

theorem total_count (report : CleanupReport) (r : Except OsError Unit) :
    total (count report r) = total report + 1 := by
  rcases r with e | u
  · cases e <;> simp only [count, total] <;> omega
  · simp only [count, total]
    omega

/-- Each path is counted once, as removed, as missing or as failed. -/
theorem total_removeAll (host : Host σ) (paths : List Path) (report : CleanupReport) (s : σ) :
    total (removeAll host paths report s).1 = total report + paths.length := by
  induction paths generalizing report s with
  | nil => rfl
  | cons p rest ih =>
    rw [removeAll, ih, total_count, List.length_cons]
    omega

/-- Where nothing can be removed, nothing is, and the machine stays as it is. -/
theorem removeAll_refused {paths : List Path} {s : σ}
    (h : ∀ p ∈ paths, ∃ e, host.remove p s = (.error e, s)) (report : CleanupReport) :
    (removeAll host paths report s).1.removed = report.removed ∧
      (removeAll host paths report s).2 = s := by
  induction paths generalizing report with
  | nil => exact ⟨rfl, rfl⟩
  | cons p rest ih =>
    obtain ⟨⟨e, he⟩, hrest⟩ := List.forall_mem_cons.mp h
    rw [removeAll, he]
    obtain ⟨hremoved, hstate⟩ := ih hrest (count report (.error e))
    refine ⟨?_, hstate⟩
    rw [hremoved]
    cases e <;> rfl

/-- Where everything is missing, everything is counted as missing. -/
theorem removeAll_missing {paths : List Path} {s : σ}
    (h : ∀ p ∈ paths, host.remove p s = (.error .notFound, s)) (report : CleanupReport) :
    (removeAll host paths report s).1 =
      { report with missing := report.missing + paths.length } := by
  induction paths generalizing report with
  | nil => rfl
  | cons p rest ih =>
    obtain ⟨hp, hrest⟩ := List.forall_mem_cons.mp h
    rw [removeAll, hp, ih hrest]
    simp only [count, List.length_cons, CleanupReport.mk.injEq, true_and, and_true]
    omega

/-- A report without failures counts none of the removals as failed. -/
theorem not_failed_of_report {paths : List Path} {s : σ}
    (h : (removeAll host paths ⟨0, 0, 0⟩ s).1.failed = 0) {p : Path} {r : Except OsError Unit}
    (hr : (p, r) ∈ outcomes host paths s) : isFailed r = false := by
  rw [failed_removeAll, Nat.zero_add, List.countP_eq_zero] at h
  simpa using h (p, r) hr

theorem mem_of_outcome {paths : List Path} {s : σ} {p : Path} {r : Except OsError Unit}
    (hr : (p, r) ∈ outcomes host paths s) : p ∈ paths := by
  induction paths generalizing s with
  | nil => cases hr
  | cons q rest ih =>
    rw [outcomes] at hr
    obtain hr | hr := List.mem_cons.mp hr
    · exact (Prod.mk.inj hr).1 ▸ List.mem_cons_self
    · exact List.mem_cons_of_mem _ (ih hr)

theorem exists_outcome {paths : List Path} (s : σ) {p : Path} (hp : p ∈ paths) :
    ∃ r, (p, r) ∈ outcomes host paths s := by
  induction paths generalizing s with
  | nil => cases hp
  | cons q rest ih =>
    rw [outcomes]
    obtain rfl | hp := List.mem_cons.mp hp
    · exact ⟨_, List.mem_cons_self⟩
    · obtain ⟨r, hr⟩ := ih (host.remove q s).2 hp
      exact ⟨r, List.mem_cons_of_mem _ hr⟩

end Count

/-! ## The paths -/

/-- The texts that name what goes: the values of the dynamic parameters and then of the
internal ones, in order of insertion, whose policy applies, trimmed, unless they are blank. -/
def flagged (store : Store) (failed : Bool) : List String :=
  let applying := (store.dynamic.entries ++ store.tmp.entries).filter (·.2.cleanup.applies failed)
  (applying.map fun p => Text.trimmed p.2.value).filter (· ≠ "")

theorem paths_eq (store : Store) (w : Workspace) (failed : Bool) :
    paths store w failed = (flagged store failed).map fun text => w.resolve ⟨text⟩ := by
  rw [paths, flagged]
  simp only [Store.allParameters]
  induction store.dynamic.entries ++ store.tmp.entries with
  | nil => rfl
  | cons p rest ih =>
    by_cases happlies : p.2.cleanup.applies failed = true
    · by_cases hblank : Text.trimmed p.2.value = ""
      · simpa [happlies, hblank] using ih
      · simpa [happlies, hblank] using ih
    · simpa [happlies] using ih

/-- What a clean-up goes through are paths, not empty texts. -/
theorem text_ne_empty {store : Store} {w : Workspace} {failed : Bool} {p : Path}
    (hp : p ∈ paths store w failed) : p.text ≠ "" := by
  rw [paths_eq] at hp
  obtain ⟨text, htext, rfl⟩ := List.mem_map.mp hp
  have hne : text ≠ "" := by simpa using (List.mem_filter.mp htext).2
  intro hempty
  unfold Workspace.resolve Path.join at hempty
  split_ifs at hempty <;> simp_all

end Cleanup

/-! ## Removing straight paths one after the other -/

namespace Machine.Disk

variable {d : Disk} {cwd q : Place} {paths : List String} {path : String}

/-- What is straight stays straight when something is removed. -/
theorem straight_rest {rest : List String} (h : ∀ p ∈ path :: rest, Straight d cwd p) :
    ∀ p ∈ rest, Straight (d.remove cwd path).2 cwd p :=
  fun p hp => (h p (List.mem_cons_of_mem _ hp)).of_kept (kept_of_remove d cwd path)

theorem node?_removeEach_of_not_below (h : ∀ path ∈ paths, Straight d cwd path)
    (hq : ∀ path ∈ paths, ¬ placeOf cwd path <+: q) :
    (d.removeEach cwd paths).node? q = d.node? q := by
  induction paths generalizing d with
  | nil => rfl
  | cons path rest ih =>
    rw [removeEach, ih (straight_rest h) fun p hp => hq p (List.mem_cons_of_mem _ hp)]
    exact (h path List.mem_cons_self).node?_remove_of_not_below (hq path List.mem_cons_self)

theorem isTree_removeEach (h : ∀ path ∈ paths, Straight d cwd path) (htree : d.IsTree) :
    (d.removeEach cwd paths).IsTree := by
  induction paths generalizing d with
  | nil => exact htree
  | cons path rest ih =>
    exact ih (straight_rest h) ((h path List.mem_cons_self).isTree_remove htree)

/-- Whether its own removal succeeded or not, no path leads to anything in the end. -/
theorem lost_after_removeEach (h : ∀ path ∈ paths, Straight d cwd path) (hp : path ∈ paths) :
    ∃ err, (d.removeEach cwd paths).lookup cwd false path = .error err := by
  induction paths generalizing d with
  | nil => cases hp
  | cons first rest ih =>
    obtain rfl | hp := List.mem_cons.mp hp
    · exact (h path List.mem_cons_self).lost_after_remove (kept_of_removeEach _ cwd rest)
    · exact ih (straight_rest h) hp

end Machine.Disk

namespace Cleanup

open Machine

variable {m : Computer} {ps : List Path}

/-- The disk of a computer after paths were removed one after the other. -/
def leftover (m : Computer) (ps : List Path) : Disk :=
  m.world.disk.removeEach m.cwd (ps.map (·.text))

/-- A computer does not remove what a path does not lead to. -/
theorem remove_withDisk {d : Disk} {p : Path} {err : OsError}
    (hd : d.lookup m.cwd false p.text = .error err) :
    Computer.host.remove p (m.withDisk d) = (.error err, m.withDisk d) := by
  show (((d.remove m.cwd p.text).1, m.withDisk (d.remove m.cwd p.text).2) : _ × Computer) = _
  rw [Disk.remove_missed hd]

/-- A path whose removal was not refused is missing in the end. -/
theorem missing_of_outcome (h : ∀ p ∈ ps, m.world.disk.Straight m.cwd p.text) {p : Path}
    {r : Except OsError Unit} (hr : (p, r) ∈ outcomes Computer.host ps m)
    (hfailed : isFailed r = false) :
    (leftover m ps).lookup m.cwd false p.text = .error .notFound := by
  induction ps generalizing m with
  | nil => cases hr
  | cons first rest ih =>
    obtain ⟨hfirst, hrest⟩ := List.forall_mem_cons.mp h
    rw [outcomes] at hr
    obtain hr | hr := List.mem_cons.mp hr
    · obtain ⟨rfl, rfl⟩ := Prod.mk.inj hr
      have hkept : Disk.Kept (leftover m (p :: rest)) (m.world.disk.remove m.cwd p.text).2 := by
        rw [leftover, List.map_cons, Disk.removeEach]
        exact Disk.kept_of_removeEach _ _ _
      obtain ⟨err, hlost⟩ := hfirst.lost_after_remove hkept
      obtain hmissing | hsame := hfirst.lookup_of_less (hkept.trans (Disk.kept_of_remove _ _ _))
      · exact hmissing
      -- It could not be found at its turn either, and that was no failure.
      · rw [hlost] at hsame
        have hremove : (Computer.host.remove p m).1 = .error err :=
          congrArg Prod.fst (Disk.remove_missed hsame.symm)
        rw [hremove, isFailed, decide_eq_false_iff_not, not_not] at hfailed
        rw [hlost, hfailed]
    · exact ih (m := (m.remove first).2)
        (fun p hp => (hrest p hp).of_kept (Disk.kept_of_remove _ _ _)) hr

/-- What is not at or below one of the paths is left over. -/
theorem node?_leftover (h : ∀ p ∈ ps, m.world.disk.Straight m.cwd p.text) {q : Place}
    (hq : ∀ p ∈ ps, ¬ Disk.placeOf m.cwd p.text <+: q) :
    (leftover m ps).node? q = m.world.disk.node? q :=
  Disk.node?_removeEach_of_not_below (by simpa using h) (by simpa using hq)

/-- Nothing is left over at or below a path whose removal was not refused. -/
theorem gone_of_outcome (h : ∀ p ∈ ps, m.world.disk.Straight m.cwd p.text)
    (htree : m.world.disk.IsTree) {p : Path} (hpath : p.text ≠ "") {r : Except OsError Unit}
    (hr : (p, r) ∈ outcomes Computer.host ps m) (hfailed : isFailed r = false) {q : Place}
    (hq : Disk.placeOf m.cwd p.text <+: q) : (leftover m ps).node? q = none := by
  have hstraight : (leftover m ps).Straight m.cwd p.text :=
    (h p (mem_of_outcome hr)).of_kept (Disk.kept_of_removeEach _ _ _)
  have hleft : (leftover m ps).IsTree := Disk.isTree_removeEach (by simpa using h) htree
  exact hstraight.absent_of_notFound hleft hpath (missing_of_outcome h hr hfailed) hq

/-- No path leads to anything that is left over, so none can be removed. -/
theorem refused_of_leftover (h : ∀ p ∈ ps, m.world.disk.Straight m.cwd p.text) :
    ∀ p ∈ ps, ∃ e, Computer.host.remove p (m.withDisk (leftover m ps)) =
      (.error e, m.withDisk (leftover m ps)) := by
  intro p hp
  obtain ⟨err, hlost⟩ := Disk.lost_after_removeEach (by simpa using h) (List.mem_map_of_mem hp)
  exact ⟨err, remove_withDisk hlost⟩

/-! ## The main result -/

/-- What a clean-up of some paths does to a computer, and what a second one does after it. -/
structure Sweeps (ps : List Path) (m : Computer) (first second : CleanupReport × Computer) :
    Prop where
  /-- Nothing but the disk is touched. -/
  onlyDisk : ∃ d, first.2 = m.withDisk d
  /-- What is not at or below one of the paths is as before. -/
  spared : ∀ q, (∀ p ∈ ps, ¬ Disk.placeOf m.cwd p.text <+: q) →
    first.2.world.disk.node? q = m.world.disk.node? q
  /-- A path whose removal has not failed is gone, with everything below it. -/
  gone : ∀ p r, (p, r) ∈ outcomes Computer.host ps m → isFailed r = false →
    ∀ q, Disk.placeOf m.cwd p.text <+: q → first.2.world.disk.node? q = none
  /-- Without failures all that was flagged is gone, and nothing else. -/
  exactly : first.1.failed = 0 → ∀ q, first.2.world.disk.node? q =
    if ∃ p ∈ ps, Disk.placeOf m.cwd p.text <+: q then none else m.world.disk.node? q
  /-- Each path is counted once. -/
  counted : first.1.removed + first.1.missing + first.1.failed = ps.length
  /-- The second clean-up changes nothing. -/
  still : second.2 = first.2
  noneLeft : second.1.removed = 0
  allMissing : first.1.failed = 0 → second.1 = ⟨0, ps.length, 0⟩

theorem sweeps_removeAll (htree : m.world.disk.IsTree)
    (hstraight : ∀ p ∈ ps, m.world.disk.Straight m.cwd p.text) (hpaths : ∀ p ∈ ps, p.text ≠ "") :
    Sweeps ps m (removeAll Computer.host ps ⟨0, 0, 0⟩ m)
      (removeAll Computer.host ps ⟨0, 0, 0⟩ (removeAll Computer.host ps ⟨0, 0, 0⟩ m).2) := by
  have hafter : (removeAll Computer.host ps ⟨0, 0, 0⟩ m).2 = m.withDisk (leftover m ps) :=
    Computer.removeAll_host ps ⟨0, 0, 0⟩ m
  have hrefused := refused_of_leftover hstraight
  rw [hafter]
  exact {
    onlyDisk := ⟨_, hafter⟩
    spared := by
      rw [hafter]
      exact fun q hq => node?_leftover hstraight hq
    gone := by
      rw [hafter]
      exact fun p r hr hfailed q hq =>
        gone_of_outcome hstraight htree (hpaths p (mem_of_outcome hr)) hr hfailed hq
    exactly := by
      intro hfailed q
      rw [hafter]
      split_ifs with hbelow
      · obtain ⟨p, hp, hq⟩ := hbelow
        obtain ⟨r, hr⟩ := exists_outcome m hp
        exact gone_of_outcome hstraight htree (hpaths p hp) hr (not_failed_of_report hfailed hr) hq
      · exact node?_leftover hstraight fun p hp hq => hbelow ⟨p, hp, hq⟩
    counted := total_removeAll Computer.host ps ⟨0, 0, 0⟩ m |>.trans (Nat.zero_add _)
    still := by
      rw [hafter]
      exact (removeAll_refused hrefused _).2
    noneLeft := (removeAll_refused hrefused _).1
    allMissing := by
      intro hfailed
      have hmissing : ∀ p ∈ ps, Computer.host.remove p (m.withDisk (leftover m ps)) =
          (.error .notFound, m.withDisk (leftover m ps)) := by
        intro p hp
        obtain ⟨r, hr⟩ := exists_outcome m hp
        exact remove_withDisk
          (missing_of_outcome hstraight hr (not_failed_of_report hfailed hr))
      rw [removeAll_missing hmissing, Nat.zero_add] }

/-- Whatever the store flags and however the paths lie, a clean-up of a disk that is a tree
deletes what the paths name and nothing else, counts each path once, and leaves nothing to
a second one. -/
theorem perform_sweeps (store : Store) (w : Workspace) (failed : Bool) (m : Computer)
    (htree : m.world.disk.IsTree)
    (hstraight : ∀ p ∈ paths store w failed, m.world.disk.Straight m.cwd p.text) :
    paths store w failed = ((flagged store failed).map fun text => w.resolve ⟨text⟩) ∧
    Sweeps (paths store w failed) m (perform Computer.host store w failed m)
      (perform Computer.host store w failed (perform Computer.host store w failed m).2) := by
  refine ⟨paths_eq store w failed, ?_⟩
  unfold perform
  exact sweeps_removeAll htree hstraight fun p hp => text_ne_empty hp

/-! ## Paths that lie below one another -/

/-- A store that flags a file twice and then the directory around it, besides a file that stays
and one that goes when a run has failed. -/
def nestedStore : Store :=
  Store.empty.run
    [.addParameter .dynamic .global "first" ⟨"frames/a", .deleteOnExit⟩,
      .addParameter .dynamic .global "again" ⟨" frames//a ", .deleteOnExit⟩,
      .addParameter .dynamic .global "result" (.keep "out"),
      .addParameter .dynamic .global "partial" ⟨"part", .deleteOnFail⟩,
      .setTmp "around" "frames" .deleteOnExit, .setTmp "blank" "  " .deleteOnExit]

/-- A computer that holds what the store names, and a little more. -/
def nestedComputer : Computer where
  world := ⟨⟨[(["work"], .directory), (["work", "frames"], .directory),
    (["work", "frames", "a"], .file 0 .empty false), (["work", "frames", "b"], .link "../out"),
    (["work", "out"], .file 1 .empty false), (["work", "part"], .file 2 .empty false)], 3⟩, #[]⟩
  cwd := ["work"]
  tasks := []
  nextPid := 1000
  nextTemporary := 0

/-- The theorem applies to the sample, for a run that has succeeded. -/
theorem perform_sweeps_nested :
    let w := Workspace.inDirectory ⟨"/work"⟩ none
    let first := perform Computer.host nestedStore w false nestedComputer
    nestedComputer.world.disk.IsTree ∧
    (∀ p ∈ paths nestedStore w false, nestedComputer.world.disk.Straight ["work"] p.text) ∧
    paths nestedStore w false =
      ((flagged nestedStore false).map fun text => w.resolve ⟨text⟩) ∧
    Sweeps (paths nestedStore w false) nestedComputer first
      (perform Computer.host nestedStore w false first.2) :=
  have htree : nestedComputer.world.disk.IsTree := Disk.isTree_of_all (by decide +kernel)
  have hstraight : ∀ p ∈ paths nestedStore (.inDirectory ⟨"/work"⟩ none) false,
      nestedComputer.world.disk.Straight ["work"] p.text := by decide +kernel
  ⟨htree, hstraight, perform_sweeps nestedStore _ false nestedComputer htree hstraight⟩

/-- The file is removed once and missing the second time; a second clean-up misses all three. -/
example :
    let w := Workspace.inDirectory ⟨"/work"⟩ none
    let first := perform Computer.host nestedStore w false nestedComputer
    first.1 = ⟨2, 1, 0⟩ ∧ (perform Computer.host nestedStore w false first.2).1 = ⟨0, 3, 0⟩ := by
  decide +kernel

end Cleanup

end MediaPipeline
