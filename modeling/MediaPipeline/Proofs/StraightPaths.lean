import MediaPipeline.Proofs.DiskChanges

/-!
# Straight paths

A path that has no dots and meets no link on its way names one place: the place where it
starts, with its names behind it. A walk along it goes down from directory to directory
(`walkFrom_straight`), so that removing what it leads to takes this place with everything
below it (`remove_found`), and what is not found cannot be found on a disk that has less
(`lookup_of_less`).
-/

namespace MediaPipeline.Machine.Disk

variable {d e : Disk} {cwd here place q : Place} {n : Node} {path : String} {pieces : List String}

/-! ## The place of a path -/

/-- The names among pieces that have no dots. -/
def namesOf (pieces : List String) : Place := pieces.filter (· ≠ "")

/-- The place that a path without dots and links names. -/
def placeOf (cwd : Place) (path : String) : Place := startOf cwd path ++ namesOf (piecesOf path)

/-- None of the pieces is made of dots. -/
structure NoDots (pieces : List String) : Prop where
  dot : "." ∉ pieces
  dots : ".." ∉ pieces

/-- No link stands in front of a slash: a walk over the pieces has none to follow. -/
def NoLinks (d : Disk) (here : Place) (pieces : List String) : Prop :=
  ∀ k < pieces.length, 0 < k → (d.node? (here ++ namesOf (pieces.take k))).any Node.isLink = false

instance (d : Disk) (here : Place) (pieces : List String) : Decidable (d.NoLinks here pieces) :=
  inferInstanceAs (Decidable (∀ k < pieces.length, _))

/-- A path that is not the root, has no dots, and meets no link on its way. A slash at its end
makes what stands before it a part of the way. -/
structure Straight (d : Disk) (cwd : Place) (path : String) : Prop where
  notRoot : placeOf cwd path ≠ []
  noDots : NoDots (piecesOf path)
  noLinks : d.NoLinks (startOf cwd path) (piecesOf path)

instance (d : Disk) (cwd : Place) (path : String) : Decidable (Straight d cwd path) :=
  decidable_of_iff
    (placeOf cwd path ≠ [] ∧ ("." ∉ piecesOf path ∧ ".." ∉ piecesOf path) ∧
      d.NoLinks (startOf cwd path) (piecesOf path))
    ⟨fun h => ⟨h.1, ⟨h.2.1.1, h.2.1.2⟩, h.2.2⟩,
      fun h => ⟨h.notRoot, ⟨h.noDots.dot, h.noDots.dots⟩, h.noLinks⟩⟩

/-- Go down from directory to directory. -/
def descend (d : Disk) : Place → List String → Except OsError Place
  | here, [] => .ok here
  | here, piece :: rest => do
    d.requireDirectory here
    if piece = "" then d.descend here rest
    else if maxName < piece.utf8ByteSize then .error .nameTooLong
    else d.descend (here ++ [piece]) rest

theorem namesOf_cons (piece : String) (rest : List String) :
    namesOf (piece :: rest) = namesOf [piece] ++ namesOf rest :=
  List.filter_append [piece] rest

/-- One step down, which an empty piece leaves out. -/
theorem descend_cons (d : Disk) (here : Place) (piece : String) (rest : List String) :
    d.descend here (piece :: rest) =
      d.requireDirectory here >>= fun _ =>
        if maxName < piece.utf8ByteSize then .error .nameTooLong
        else d.descend (here ++ namesOf [piece]) rest := by
  rw [descend]
  by_cases hempty : piece = ""
  · subst hempty
    simp [namesOf, maxName]
  · simp [namesOf, hempty]

theorem NoDots.tail {piece : String} {rest : List String} (h : NoDots (piece :: rest)) :
    NoDots rest :=
  ⟨fun hm => h.dot (List.mem_cons_of_mem _ hm), fun hm => h.dots (List.mem_cons_of_mem _ hm)⟩

theorem NoLinks.tail {piece : String} {rest : List String} (h : d.NoLinks here (piece :: rest)) :
    d.NoLinks (here ++ namesOf [piece]) rest := by
  intro k hk _
  rw [List.append_assoc, ← namesOf_cons, ← List.take_succ_cons]
  exact h (k + 1) (Nat.succ_lt_succ hk) (Nat.succ_pos k)

theorem NoDots.of_append {rest : List String} (h : NoDots (pieces ++ rest)) : NoDots pieces :=
  ⟨fun hm => h.dot (List.mem_append_left _ hm), fun hm => h.dots (List.mem_append_left _ hm)⟩

theorem NoLinks.of_append {rest : List String} (h : d.NoLinks here (pieces ++ rest)) :
    d.NoLinks here pieces := by
  intro k hk hpos
  have hno := h k (by rw [List.length_append]; omega) hpos
  rwa [List.take_append_of_le_length (Nat.le_of_lt hk)] at hno

/-- A path is its pieces in front, and slashes that name nothing. -/
theorem piecesInFront_append (path : String) :
    ∃ slashes, piecesOf path = piecesInFront path ++ slashes ∧ namesOf slashes = [] := by
  refine ⟨((piecesOf path).reverse.takeWhile (· = "")).reverse, ?_, ?_⟩
  · rw [piecesInFront, ← List.reverse_append, List.takeWhile_append_dropWhile, List.reverse_reverse]
  · rw [namesOf, List.filter_eq_nil_iff]
    intro piece hpiece
    simpa using List.all_eq_true.mp List.all_takeWhile piece (List.mem_reverse.mp hpiece)

/-- A disk that has less has no more links. -/
theorem Straight.of_kept (h : Straight d cwd path) (hk : Kept e d) : Straight e cwd path :=
  ⟨h.notRoot, h.noDots, fun k hlt hpos => by
    have hno := h.noLinks k hlt hpos
    cases hn : e.node? (startOf cwd path ++ namesOf ((piecesOf path).take k)) with
    | none => rfl
    | some n => rwa [hk _ _ hn] at hno⟩

/-! ## Walking straight down -/

/-- Without dots and links to follow, a walk goes straight down. -/
theorem walkFrom_straight {fuel links : Nat} (hdots : NoDots pieces)
    (hlinks : d.NoLinks here pieces) (hfuel : pieces.length ≤ fuel) :
    d.walkFrom false fuel links here pieces = d.descend here pieces := by
  induction pieces generalizing fuel here with
  | nil => cases fuel <;> rfl
  | cons piece rest ih =>
    obtain ⟨fuel, rfl⟩ : ∃ k, fuel = k + 1 := ⟨fuel - 1, by simp at hfuel; omega⟩
    have hfuel' : rest.length ≤ fuel := by simpa using hfuel
    have hdot : piece ≠ "." := fun h => hdots.dot (h ▸ List.mem_cons_self)
    have hup : piece ≠ ".." := fun h => hdots.dots (h ▸ List.mem_cons_self)
    have hrest := ih hdots.tail hlinks.tail hfuel'
    rw [descend_cons]
    rcases hdir : d.requireDirectory here with err | _
    · simp [walkFrom, hdir, bind, Except.bind]
    by_cases hempty : piece = ""
    · subst hempty
      have hnone : namesOf [""] = [] := by decide
      rw [hnone, List.append_nil] at hrest ⊢
      simp [walkFrom, hdir, bind, Except.bind, hrest]
    have hname : namesOf [piece] = [piece] := by simp [namesOf, hempty]
    by_cases hlong : maxName < piece.utf8ByteSize
    · simp [walkFrom, hdir, bind, Except.bind, hempty, hdot, hup, hlong]
    rw [walkFrom_name hdir ⟨hempty, hdot, hup⟩ hlong]
    simp only [bind, Except.bind, if_neg hlong]
    rw [hname] at hrest ⊢
    cases hn : d.node? (here ++ [piece]) with
    | none => exact hrest
    | some n =>
      cases n with
      | link target =>
        -- A link is met at the very end only, and there it is not followed.
        cases rest with
        | nil => rfl
        | cons next more =>
          have hno := hlinks 1 (by simp) Nat.one_pos
          rw [List.take_succ_cons, List.take_zero, hname, hn] at hno
          cases hno
      | file | directory | device | program => exact hrest

theorem length_pieces (cs : List Char) : (Path.pieces cs).length ≤ cs.length + 1 := by
  induction cs with
  | nil => simp [Path.pieces]
  | cons c cs ih =>
    simp only [Path.pieces]
    by_cases hc : c = '/'
    · simp [hc, ih]
    · rw [if_neg hc]
      cases hp : Path.pieces cs with
      | nil => simp
      | cons p ps =>
        rw [hp] at ih
        simp at ih ⊢
        omega

theorem length_piecesOf (path : String) : (piecesOf path).length ≤ 100000 + path.length := by
  have := length_pieces path.toList
  simp only [piecesOf, List.length_map, String.length_toList] at this ⊢
  omega

theorem walk_straight (h : Straight d cwd path) :
    d.walk cwd false path =
      if path.toList.contains (Char.ofNat 0) then .error .zeroInPath
      else if path.isEmpty then .error .notFound
      else d.descend (startOf cwd path) (piecesOf path) := by
  rw [walk, walkFrom_straight h.noDots h.noLinks (length_piecesOf path)]

theorem descend_place (h : d.descend here pieces = .ok place) : place = here ++ namesOf pieces := by
  induction pieces generalizing here with
  | nil =>
    cases h
    simp [namesOf]
  | cons piece rest ih =>
    rw [descend_cons] at h
    rcases hdir : d.requireDirectory here with err | _
    · rw [hdir] at h
      cases h
    rw [hdir] at h
    simp only [bind, Except.bind] at h
    split_ifs at h
    rw [ih h, namesOf_cons piece rest, List.append_assoc]

/-- On a disk that has less, a descent comes to the same, or something on the way is not
there. -/
theorem descend_of_less (h : Kept e d) (here : Place) (pieces : List String) :
    e.descend here pieces = .error .notFound ∨ e.descend here pieces = d.descend here pieces := by
  induction pieces generalizing here with
  | nil => exact .inr rfl
  | cons piece rest ih =>
    rw [descend_cons, descend_cons]
    have hdir : e.requireDirectory here = .error .notFound ∨
        e.requireDirectory here = d.requireDirectory here := by
      cases hn : e.node? here with
      | none => exact .inl (by simp [requireDirectory, hn])
      | some n => exact .inr (by simp [requireDirectory, hn, h _ _ hn])
    obtain hdir | hdir := hdir
    · exact .inl (by rw [hdir]; rfl)
    rw [hdir]
    rcases d.requireDirectory here with err | _
    · exact .inr rfl
    simp only [bind, Except.bind]
    split_ifs
    · exact .inr rfl
    · exact ih (here ++ namesOf [piece])

/-- Where a descent does not find its way, there is nothing. -/
theorem IsTree.absent_of_descend (h : d.IsTree) (hd : d.descend here pieces = .error .notFound) :
    d.node? (here ++ namesOf pieces) = none := by
  induction pieces generalizing here with
  | nil => cases hd
  | cons piece rest ih =>
    rw [descend_cons] at hd
    cases hn : d.node? here with
    | none => exact h.none_below hn (List.prefix_append _ _)
    | some n =>
      rcases hdir : d.requireDirectory here with err | _
      · rw [hdir] at hd
        simp only [requireDirectory, hn] at hdir
        cases n <;> cases hdir <;> cases hd
      rw [hdir] at hd
      simp only [bind, Except.bind] at hd
      split_ifs at hd
      · cases hd
      · rw [namesOf_cons piece rest, ← List.append_assoc]
        exact ih hd

/-! ## Looking up a straight path -/

/-- What a straight path leads to stands at its place. -/
theorem Straight.place_of_lookup (h : Straight d cwd path)
    (hd : d.lookup cwd false path = .ok (place, n)) : place = placeOf cwd path := by
  have hwalk := (walk_of_lookup hd).1
  rw [walk_straight h] at hwalk
  split_ifs at hwalk
  exact descend_place hwalk

/-- On a disk that has less, a straight path leads to the same, or to nothing. -/
theorem Straight.lookup_of_less (h : Straight d cwd path) (hk : Kept e d) :
    e.lookup cwd false path = .error .notFound ∨
      e.lookup cwd false path = d.lookup cwd false path := by
  have hwalk : e.walk cwd false path = .error .notFound ∨
      e.walk cwd false path = d.walk cwd false path := by
    rw [walk_straight h, walk_straight (h.of_kept hk)]
    split_ifs
    · exact .inr rfl
    · exact .inr rfl
    · exact descend_of_less hk _ _
  obtain hwalk | hwalk := hwalk
  · exact .inl (by rw [lookup, hwalk]; rfl)
  rcases hd : d.walk cwd false path with err | place
  · rw [hd] at hwalk
    exact .inr (by rw [lookup, lookup, hwalk, hd]; rfl)
  rw [hd] at hwalk
  cases hn : e.node? place with
  | none => exact .inl (lookup_of_absent hwalk hn)
  | some n => exact .inr (by rw [lookup_of_walk hwalk hn, lookup_of_walk hd (hk _ _ hn)])

/-- On a tree, nothing is at or below the place of a straight path that is not found. -/
theorem Straight.absent_of_notFound (h : Straight d cwd path) (htree : d.IsTree) (hpath : path ≠ "")
    (hd : d.lookup cwd false path = .error .notFound) (hq : placeOf cwd path <+: q) :
    d.node? q = none := by
  have habsent : d.node? (placeOf cwd path) = none := by
    rcases hwalk : d.walk cwd false path with err | place
    · have herr : err = .notFound := by
        rw [lookup, hwalk] at hd
        exact Except.error.inj hd
      rw [walk_straight h, herr] at hwalk
      rw [if_neg (by simpa using hpath : ¬ path.isEmpty = true)] at hwalk
      split_ifs at hwalk
      · cases hwalk
      · exact htree.absent_of_descend hwalk
    · cases hn : d.node? place with
      | some n =>
        rw [lookup_of_walk hwalk hn] at hd
        cases hd
      | none =>
        rw [walk_straight h] at hwalk
        split_ifs at hwalk
        rwa [descend_place hwalk] at hn
  exact htree.none_below habsent hq

/-! ## Removing a straight path -/

theorem node?_prune (hplace : place ≠ []) :
    (d.prune place).node? q = if place <+: q then none else d.node? q := by
  by_cases hq : q = []
  · subst hq
    rw [node?_nil, node?_nil, if_neg (fun h => hplace (List.prefix_nil.mp h))]
  · rw [prune, node?_filter d (fun p => !place.isPrefixOf p) hq]
    by_cases hp : place <+: q
    · simp [hp, List.isPrefixOf_iff_prefix.mpr hp]
    · simp [hp, mt List.isPrefixOf_iff_prefix.mp hp]

/-- A directory that a straight path leads to is named itself. -/
theorem Straight.isRoundabout_eq (h : Straight d cwd path)
    (hd : d.lookup cwd false path = .ok (place, .directory)) : d.isRoundabout cwd path = false := by
  obtain ⟨slashes, hpieces, hslashes⟩ := piecesInFront_append path
  have hdots : NoDots (piecesInFront path) := .of_append (hpieces ▸ h.noDots)
  have hlinks : d.NoLinks (startOf cwd path) (piecesInFront path) :=
    .of_append (hpieces ▸ h.noLinks)
  have hlength : (piecesInFront path).length ≤ 100000 + path.length := by
    have := length_piecesOf path
    rw [hpieces, List.length_append] at this
    omega
  have hlast : ¬ ((piecesInFront path).getLast? = some "." ∨
      (piecesInFront path).getLast? = some "..") := by
    rintro (hlast | hlast)
    · exact hdots.dot (List.mem_of_getLast? hlast)
    · exact hdots.dots (List.mem_of_getLast? hlast)
  unfold isRoundabout
  dsimp only
  rw [walkFrom_straight hdots hlinks hlength]
  cases hwalk : d.descend (startOf cwd path) (piecesInFront path) with
  | error err => simp [hlast]
  | ok place' =>
    have hplace : place' = placeOf cwd path := by
      rw [descend_place hwalk, placeOf, hpieces, namesOf, namesOf, List.filter_append]
      rw [namesOf] at hslashes
      rw [hslashes, List.append_nil]
    have hn : d.node? place' = some .directory := by
      rw [hplace, ← h.place_of_lookup hd]
      exact (walk_of_lookup hd).2
    simp [hlast, hn, Node.isLink]

/-- Removing what a straight path leads to deletes its place with everything below it. -/
theorem Straight.remove_found (h : Straight d cwd path)
    (hd : d.lookup cwd false path = .ok (place, n)) :
    d.remove cwd path = (.ok (), d.prune (placeOf cwd path)) := by
  rw [← h.place_of_lookup hd, remove, hd]
  cases n with
  | directory => simp [h.isRoundabout_eq hd]
  | file | link | device | program => rfl

/-- What is not found is not removed, and the disk stays as it is. -/
theorem remove_missed {err : OsError} (hd : d.lookup cwd false path = .error err) :
    d.remove cwd path = (.error err, d) := by
  rw [remove, hd]

/-- A removal takes nothing that is not at or below the place of its path. -/
theorem Straight.node?_remove_of_not_below (h : Straight d cwd path)
    (hq : ¬ placeOf cwd path <+: q) : (d.remove cwd path).2.node? q = d.node? q := by
  rcases hd : d.lookup cwd false path with err | ⟨place, n⟩
  · rw [remove_missed hd]
  · rw [h.remove_found hd, node?_prune h.notRoot, if_neg hq]

/-- A removal leaves a tree. -/
theorem Straight.isTree_remove (h : Straight d cwd path) (htree : d.IsTree) :
    (d.remove cwd path).2.IsTree := by
  rcases hd : d.lookup cwd false path with err | ⟨place, n⟩
  · rwa [remove_missed hd]
  · rw [h.remove_found hd]
    intro p name m hm
    rw [node?_prune h.notRoot] at hm ⊢
    split_ifs at hm with hbelow
    rw [if_neg fun hp => hbelow (hp.trans (List.prefix_append _ _))]
    exact htree p name m hm

/-- After its removal a straight path leads to nothing, whatever else is taken away. -/
theorem Straight.lost_after_remove (h : Straight d cwd path) (hk : Kept e (d.remove cwd path).2) :
    ∃ err, e.lookup cwd false path = .error err := by
  rcases he : e.lookup cwd false path with err | ⟨place, n⟩
  · exact ⟨err, rfl⟩
  -- What the path leads to afterwards, it also leads to before; but that was taken.
  have hafter := lookup_of_kept hk he
  have hbefore := lookup_of_kept (kept_of_remove d cwd path) hafter
  have hleft := (walk_of_lookup hafter).2
  rw [h.remove_found hbefore, node?_prune h.notRoot, h.place_of_lookup hbefore,
    if_pos (List.prefix_refl _)] at hleft
  cases hleft

end MediaPipeline.Machine.Disk
