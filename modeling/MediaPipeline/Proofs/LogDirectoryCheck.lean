import MediaPipeline.Proofs.DryRunDisk
import MediaPipeline.Proofs.LogNames

/-!
# The check of the log directory

Settings are turned down if their log directory is a regular file. The check looks at the
directory as it was written, from the current directory. A conversion takes a relative one
from its working directory. So the check answers for the directory that is used if that is
an absolute path; otherwise it looks at another place, and a file that is in the way of the
logs may be found only when the workspace is prepared.
-/

namespace MediaPipeline

namespace Machine.Disk

variable {d : Disk} {cwd : Place} {path : String}

theorem requireDirectory_eq_ok {p : Place} :
    d.requireDirectory p = .ok () ↔ d.node? p = some .directory := by
  unfold requireDirectory
  split <;> simp_all

/-- A walk with a slash at the end leads to a directory. -/
theorem Walk.directory_of_slash {follow : Bool} {fuel links : Nat} {here place : Place}
    {pieces : List String} (h : Walk d follow fuel links here pieces place)
    (hlast : pieces.getLast? = some "") : d.node? place = some .directory := by
  -- A name is not empty, so more follows after it.
  have hmore {piece : String} {rest : List String} (hname : IsName piece)
      (hlast : (piece :: rest).getLast? = some "") : rest.getLast? = some "" := by
    cases rest with
    | nil => exact absurd (Option.some.inj hlast) hname.nonempty
    | cons next rest => rwa [List.getLast?_cons_cons] at hlast
  induction h with
  | done => cases hlast
  | @stay _ _ _ _ _ rest hdir _ hwalk ih =>
    cases rest with
    | nil =>
      cases hwalk
      exact requireDirectory_eq_ok.mp hdir
    | cons next rest =>
      rw [List.getLast?_cons_cons] at hlast
      exact ih hlast
  | @up _ _ _ _ rest _ _ ih =>
    cases rest with
    | nil => exact absurd hlast (by decide)
    | cons next rest =>
      rw [List.getLast?_cons_cons] at hlast
      exact ih hlast
  | rest _ hname => cases hmore hname hlast
  | link _ hname _ _ _ _ ih =>
    apply ih
    rw [List.getLast?_append, hmore hname hlast, Option.some_or]
  | enter _ hname _ _ _ ih => exact ih (hmore hname hlast)

/-- What a regular file stands under. -/
theorem lookup_of_isFile (h : d.isFile cwd path = true) :
    ∃ found, d.lookup cwd true path = .ok found ∧ found.2 ≠ .directory := by
  unfold isFile at h
  split at h
  · exact ⟨_, by assumption, by simp⟩
  · exact ⟨_, by assumption, by simp⟩
  · cases h

/-- The path of a regular file does not end in a slash. -/
theorem trimSlashes_of_isFile (h : d.isFile cwd path = true) : trimSlashes path = path := by
  obtain ⟨⟨place, n⟩, hlookup, hn⟩ := lookup_of_isFile h
  obtain ⟨hwalk, hnode⟩ := walk_of_lookup hlookup
  unfold walk at hwalk
  split_ifs at hwalk with hzero hempty
  cases hlast : path.toList.getLast? with
  | none =>
    have : path = "" := String.toList_eq_nil_iff.mp (List.getLast?_eq_none_iff.mp hlast)
    exact absurd this (by simpa using hempty)
  | some c =>
    apply trimSlashes_of_getLast? hlast
    rintro rfl
    obtain ⟨front, hfront⟩ := List.getLast?_eq_some_iff.mp hlast
    have hslash : (piecesOf path).getLast? = some "" := by
      rw [piecesOf, hfront, Path.pieces_append_slash]
      simp [Path.pieces]
    have := (walk_of_walkFrom hwalk).directory_of_slash hslash
    rw [hnode] at this
    exact hn (Option.some.inj this)

/-- No directory is made where a regular file is. -/
theorem makeDirectories_of_isFile (h : d.isFile cwd path = true) (fuel : Nat) :
    d.makeDirectories cwd (fuel + 1) path = (.error .fileExists, d) := by
  obtain ⟨⟨place, n⟩, hlookup, hn⟩ := lookup_of_isFile h
  obtain ⟨⟨place', n'⟩, hlookup'⟩ := lookup_unfollowed hlookup
  obtain ⟨hwalk, hnode⟩ := walk_of_lookup hlookup'
  have hone : d.makeDirectory cwd path = .error .fileExists := by
    unfold makeDirectory
    rw [trimSlashes_of_isFile h, hwalk]
    simp [bind, Except.bind, hnode]
  have hempty : ¬ path.isEmpty = true := by
    intro hempty
    have : d.walk cwd true path = .ok place := (walk_of_lookup hlookup).1
    unfold walk at this
    rw [if_pos hempty] at this
    split_ifs at this
  have hnone : d.isDirectory cwd path = false := by
    unfold isDirectory
    rw [hlookup]
    cases n <;> first | rfl | exact absurd rfl hn
  unfold makeDirectories
  rw [if_neg hempty, hone]
  simp [hnone]

theorem isFile_of_kept {e : Disk} (h : Kept d e) (hd : d.isFile cwd path = true) :
    e.isFile cwd path = true := by
  obtain ⟨found, hlookup, -⟩ := lookup_of_isFile hd
  unfold isFile at hd ⊢
  rwa [lookup_of_kept h hlookup, ← hlookup]

end Machine.Disk

theorem Machine.Computer.createDirs_of_isFile {m : Computer} {p : Path}
    (h : m.world.disk.isFile m.cwd p.text = true) :
    m.createDirs p = (.error .fileExists, m) := by
  unfold createDirs
  rw [Disk.makeDirectories_of_isFile h]
  rfl

namespace Workspace

open Machine Computer

/-- A workspace cannot be prepared where its logs would go into a regular file. -/
theorem create_of_isFile (w : Workspace) (m : Computer) (h : host.isFile w.logs m = true) :
    ∃ e m', w.create host m = (.error e, m') := by
  have hmade : Disk.Made m.cwd [w.directory] m.world.disk (m.createDirs w.directory).2.world.disk :=
    Disk.Made.makeDirectories List.mem_cons_self .refl m.world.disk _
  unfold create
  rcases hr : host.createDirs w.directory m with ⟨e | _, m'⟩
  · exact ⟨e, m', rfl⟩
  · obtain rfl : (m.createDirs w.directory).2 = m' := congrArg Prod.snd hr
    have hfile := Disk.isFile_of_kept hmade.kept h
    exact ⟨.fileExists, _, createDirs_of_isFile (m := (m.createDirs w.directory).2) hfile⟩

end Workspace

namespace Settings

variable {σ : Type}

/-- The settings are turned down because their log directory is a file. -/
def LogsRefused (host : Host σ) (machine : σ) (s : Settings) : Prop :=
  ∃ logs, s.check host machine = .error (.ofCause (.logsAreFile logs))

/-- The check looks at the log directory as it was written. -/
theorem logsRefused_iff (host : Host σ) (machine : σ) (s : Settings) :
    s.LogsRefused host machine ↔
      ∃ logs, s.logs = some logs ∧ host.isFile logs machine = true := by
  unfold LogsRefused check
  cases hfile : s.logs.filter fun p => host.isFile p machine with
  | some p =>
    rw [Option.filter_eq_some_iff] at hfile
    exact iff_of_true ⟨p, rfl⟩ ⟨p, hfile⟩
  | none =>
    refine iff_of_false ?_ ?_
    · rintro ⟨logs, hlogs⟩
      dsimp only at hlogs
      split_ifs at hlogs
      cases hlogs
    · rintro ⟨logs, hlogs, hlogsFile⟩
      rw [Option.filter_eq_none_iff] at hfile
      exact hfile logs hlogs hlogsFile

end Settings

/-! ## The main result -/

namespace Conversion

open Machine Computer

/-- The check of the log directory, for a conversion in the configured working directory. It
refuses the settings exactly if their log directory, seen from the current directory, is a
regular file. What the workspace uses is an absolute log directory, or one in the working
directory; if that is a regular file, no workspace is prepared. So the check answers for the
directory that is used if that was written as an absolute path. -/
theorem logs_checked (settings : Settings) (c : Conversion) (m : Computer) (dir : Path)
    (hown : c.directory = none) (hdir : settings.directory = some dir) :
    let used := Workspace.logsIn dir settings.logs
    (settings.LogsRefused host m ↔
      ∃ logs, settings.logs = some logs ∧ host.isFile logs m = true) ∧
    (∀ w m', c.prepared host settings m = (.ok w, m') → w.logs = used) ∧
    (host.isFile used m = true → ∃ e m', c.prepared host settings m = (.error e, m')) ∧
    (∀ logs, settings.logs = some logs → logs.isAbsolute = true →
      (settings.LogsRefused host m ↔ host.isFile used m = true)) := by
  intro used
  have hprepared : c.prepared host settings m =
      match (Workspace.inDirectory dir settings.logs).create host m with
      | (.ok (), m') => (.ok (Workspace.inDirectory dir settings.logs), m')
      | (.error e, m') => (.error e, m') := by
    unfold prepared
    rw [hown, hdir, Option.none_or]
    unfold Workspace.prepare
    dsimp only
    cases (Workspace.inDirectory dir settings.logs).create host m with
    | mk outcome m' => cases outcome <;> rfl
  refine ⟨settings.logsRefused_iff host m, ?_, ?_, ?_⟩
  · intro w m' hw
    rw [hprepared] at hw
    split at hw
    · cases hw
      rfl
    · cases hw
  · intro hfile
    obtain ⟨e, m', hcreate⟩ := (Workspace.inDirectory dir settings.logs).create_of_isFile m hfile
    rw [hprepared, hcreate]
    exact ⟨e, m', rfl⟩
  · intro logs hlogs habsolute
    have hused : used = logs := by
      show Workspace.logsIn dir settings.logs = logs
      rw [hlogs]
      exact Path.join_of_isAbsolute habsolute
    rw [Settings.logsRefused_iff, hused, hlogs]
    simp

/-- Settings with a relative log directory. -/
def relativeLogs : Settings :=
  { Settings.standard with directory := some ⟨"work"⟩, logs := some ⟨"logs"⟩ }

/-- A conversion that is asked for no working directory of its own. -/
def atConfigured : Conversion := ⟨⟨"job"⟩, ⟨"package"⟩, none, [], false⟩

/-- A computer whose current directory holds a working directory and a file at a place. -/
def withFileAt (p : Place) : Computer :=
  let nodes : List (Place × Node) :=
    [(["home"], .directory), (["home", "work"], .directory),
      ("home" :: p, .file 0 "kept".toUTF8 false)]
  ⟨⟨⟨nodes, 1⟩, #[]⟩, ["home"], [], 1000, 0⟩

/-- The theorem applies where the log directory in the working directory is a file. -/
theorem logs_checked_relative :
    let m := withFileAt ["work", "logs"]
    let used := Workspace.logsIn ⟨"work"⟩ relativeLogs.logs
    atConfigured.directory = none ∧ relativeLogs.directory = some ⟨"work"⟩ ∧
    (relativeLogs.LogsRefused host m ↔
      ∃ logs, relativeLogs.logs = some logs ∧ host.isFile logs m = true) ∧
    (∀ w m', atConfigured.prepared host relativeLogs m = (.ok w, m') → w.logs = used) ∧
    (host.isFile used m = true →
      ∃ e m', atConfigured.prepared host relativeLogs m = (.error e, m')) ∧
    (∀ logs, relativeLogs.logs = some logs → logs.isAbsolute = true →
      (relativeLogs.LogsRefused host m ↔ host.isFile used m = true)) :=
  ⟨rfl, rfl,
    logs_checked relativeLogs atConfigured (withFileAt ["work", "logs"]) ⟨"work"⟩ rfl rfl⟩

/-- A file in the current directory makes the check refuse a log directory that is not a file,
and a file in the working directory passes although it is the log directory. -/
theorem relativeLogs_misjudged :
    atConfigured.directory = none ∧ relativeLogs.directory = some ⟨"work"⟩ ∧
    (relativeLogs.LogsRefused host (withFileAt ["logs"]) ∧
      host.isFile (Workspace.logsIn ⟨"work"⟩ relativeLogs.logs) (withFileAt ["logs"]) = false) ∧
    (¬ relativeLogs.LogsRefused host (withFileAt ["work", "logs"]) ∧
      host.isFile (Workspace.logsIn ⟨"work"⟩ relativeLogs.logs)
        (withFileAt ["work", "logs"]) = true) := by
  refine ⟨rfl, rfl, ⟨?_, by decide +kernel⟩, ?_, by decide +kernel⟩
  · rw [Settings.logsRefused_iff]
    exact ⟨⟨"logs"⟩, rfl, by decide +kernel⟩
  · rw [Settings.logsRefused_iff]
    rintro ⟨logs, hlogs, hfile⟩
    cases hlogs
    exact absurd hfile (by decide +kernel)

end Conversion

end MediaPipeline
