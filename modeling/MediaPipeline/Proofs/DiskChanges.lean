import MediaPipeline.Machine.Disk
import Mathlib.Data.List.Induction
import Mathlib.Logic.Relation

/-!
# How disks change

Making directories only adds directories, and removing only takes away. What a removal
takes is said place by place, so that a list of removals can be asked whether it spares
everything that another disk holds.
-/

namespace MediaPipeline.Machine

namespace Disk

variable {d e f : Disk} {cwd p q : Place} {n : Node} {path : String}

/-! ## Places -/

@[simp] theorem node?_nil (d : Disk) : d.node? [] = some .directory := if_pos rfl

theorem node?_of_ne_nil (d : Disk) (hq : q ≠ []) :
    d.node? q = (d.nodes.find? fun e => e.1 = q).map (·.2) := if_neg hq

theorem node?_put_self (d : Disk) (hp : p ≠ []) : (d.put p n).node? p = some n := by
  rw [node?_of_ne_nil _ hp, put, List.find?_append, List.find?_eq_none.mpr]
  · simp
  · intro e he
    simpa using (List.mem_filter.mp he).2

theorem node?_put_of_ne (d : Disk) (h : q ≠ p) : (d.put p n).node? q = d.node? q := by
  by_cases hq : q = []
  · rw [hq, node?_nil, node?_nil]
  · have hrest : (d.nodes.filter fun e => e.1 ≠ p).find? (fun e => e.1 = q) =
        d.nodes.find? fun e => e.1 = q := by
      rw [List.find?_filter]
      congr 1
      funext e
      by_cases he : e.1 = q
      · simp [he, h]
      · simp [he]
    rw [node?_of_ne_nil _ hq, node?_of_ne_nil _ hq, put, List.find?_append, hrest]
    simp [Ne.symm h]

/-- What is left of a disk of which only some places are kept. -/
theorem node?_filter (d : Disk) (keep : Place → Bool) (hq : q ≠ []) :
    node? { d with nodes := d.nodes.filter fun e => keep e.1 } q =
      if keep q then d.node? q else none := by
  rw [node?_of_ne_nil _ hq, node?_of_ne_nil _ hq, List.find?_filter]
  by_cases hk : keep q = true
  · rw [if_pos hk]
    congr 2
    funext e
    by_cases he : e.1 = q
    · simp [he, hk]
    · simp [he]
  · rw [if_neg hk, List.find?_eq_none.mpr]
    · rfl
    · intro e _ he
      obtain ⟨hke, rfl⟩ := by simpa using he
      exact hk hke

/-- The second disk still has everything that the first has. -/
def Kept (d e : Disk) : Prop := ∀ p n, d.node? p = some n → e.node? p = some n

theorem Kept.refl (d : Disk) : Kept d d := fun _ _ h => h

theorem Kept.trans (h : Kept d e) (g : Kept e f) : Kept d f := fun p n hp => g p n (h p n hp)

/-- What is below something is below a directory. -/
def IsTree (d : Disk) : Prop :=
  ∀ p name n, d.node? (p ++ [name]) = some n → d.node? p = some .directory

theorem isTree_of_all
    (h : (d.nodes.all fun e => (d.node? e.1.dropLast).any (·.isDirectory)) = true) :
    d.IsTree := by
  intro p name n hn
  rw [node?_of_ne_nil _ (by simp)] at hn
  obtain ⟨e, hfind, -⟩ := Option.map_eq_some_iff.mp hn
  have hplace : e.1 = p ++ [name] := by simpa using List.find?_some hfind
  have habove := List.all_eq_true.mp h e (List.mem_of_find?_eq_some hfind)
  rw [hplace, List.dropLast_concat] at habove
  cases hp : d.node? p with
  | none =>
    rw [hp] at habove
    cases habove
  | some m =>
    rw [hp] at habove
    cases m <;> first | rfl | cases habove

/-- Nothing is below a place where nothing is. -/
theorem IsTree.none_below (h : d.IsTree) (hp : d.node? p = none) (hpq : p <+: q) :
    d.node? q = none := by
  obtain ⟨rest, rfl⟩ := hpq
  induction rest using List.reverseRecOn with
  | nil => rw [List.append_nil, hp]
  | append_singleton rest name ih =>
    rw [← List.append_assoc]
    cases hn : d.node? (p ++ rest ++ [name]) with
    | none => rfl
    | some n =>
      rw [h _ _ _ hn] at ih
      cases ih

/-! ## Walks -/

theorem requireDirectory_of_kept (h : Kept d e) (hd : d.requireDirectory p = .ok ()) :
    e.requireDirectory p = .ok () := by
  unfold requireDirectory at hd ⊢
  cases hn : d.node? p with
  | none =>
    rw [hn] at hd
    cases hd
  | some n =>
    rw [hn] at hd
    rw [h p n hn]
    exact hd

/-- A piece of a path that names something. -/
structure IsName (piece : String) : Prop where
  nonempty : piece ≠ ""
  notDot : piece ≠ "."
  notDots : piece ≠ ".."

/-- A walk over pieces that is possible, with its fuel and the links that may be followed. -/
inductive Walk (d : Disk) (follow : Bool) : Nat → Nat → Place → List String → Place → Prop
  | done (fuel links : Nat) (here : Place) : Walk d follow fuel links here [] here
  | stay {fuel links : Nat} {here place : Place} {piece : String} {rest : List String}
      (hdir : d.requireDirectory here = .ok ()) (hpiece : piece = "" ∨ piece = ".")
      (h : Walk d follow fuel links here rest place) :
      Walk d follow (fuel + 1) links here (piece :: rest) place
  | up {fuel links : Nat} {here place : Place} {rest : List String}
      (hdir : d.requireDirectory here = .ok ())
      (h : Walk d follow fuel links here.dropLast rest place) :
      Walk d follow (fuel + 1) links here (".." :: rest) place
  /-- A link at the end that is not followed. -/
  | rest {fuel links : Nat} {here : Place} {piece target : String}
      (hdir : d.requireDirectory here = .ok ()) (hname : IsName piece)
      (hlong : ¬ maxName < piece.utf8ByteSize)
      (hnode : d.node? (here ++ [piece]) = some (.link target)) (hfollow : follow = false) :
      Walk d follow (fuel + 1) links here [piece] (here ++ [piece])
  | link {fuel links : Nat} {here place : Place} {piece target : String} {rest : List String}
      (hdir : d.requireDirectory here = .ok ()) (hname : IsName piece)
      (hlong : ¬ maxName < piece.utf8ByteSize)
      (hnode : d.node? (here ++ [piece]) = some (.link target)) (hfollow : rest ≠ [] ∨ follow = true)
      (h : Walk d follow fuel links (startOf here target) (piecesOf target ++ rest) place) :
      Walk d follow (fuel + 1) (links + 1) here (piece :: rest) place
  | enter {fuel links : Nat} {here place : Place} {piece : String} {rest : List String}
      (hdir : d.requireDirectory here = .ok ()) (hname : IsName piece)
      (hlong : ¬ maxName < piece.utf8ByteSize)
      (hnode : ∀ target, d.node? (here ++ [piece]) ≠ some (.link target))
      (h : Walk d follow fuel links (here ++ [piece]) rest place) :
      Walk d follow (fuel + 1) links here (piece :: rest) place

section Walks

variable {follow : Bool} {fuel links : Nat} {here place : Place} {piece : String}
  {pieces rest : List String}

/-- The first step of a walk to a name, in a directory. -/
theorem walkFrom_name (hdir : d.requireDirectory here = .ok ()) (hname : IsName piece)
    (hlong : ¬ maxName < piece.utf8ByteSize) :
    d.walkFrom follow (fuel + 1) links here (piece :: rest) =
      match d.node? (here ++ [piece]) with
      | some (.link target) =>
        if rest.isEmpty && !follow then .ok (here ++ [piece])
        else
          match links with
          | 0 => .error .tooManyLinks
          | links + 1 =>
            walkFrom d follow fuel links (startOf here target) (piecesOf target ++ rest)
      | _ => walkFrom d follow fuel links (here ++ [piece]) rest := by
  have hstay : ¬ (piece = "" ∨ piece = ".") := not_or.mpr ⟨hname.nonempty, hname.notDot⟩
  conv => lhs; unfold walkFrom
  rw [hdir]
  simp only [bind, Except.bind]
  rw [if_neg hstay, if_neg hname.notDots]
  exact if_neg hlong

theorem walk_of_walkFrom (hd : d.walkFrom follow fuel links here pieces = .ok place) :
    Walk d follow fuel links here pieces place := by
  induction fuel generalizing links here pieces with
  | zero =>
    cases pieces with
    | nil =>
      cases hd
      exact .done _ _ _
    | cons piece rest => cases hd
  | succ fuel ih =>
    cases pieces with
    | nil =>
      cases hd
      exact .done _ _ _
    | cons piece rest =>
      have hwalk := hd
      unfold walkFrom at hd
      rcases hdir : d.requireDirectory here with err | _
      · rw [hdir] at hd
        cases hd
      rw [hdir] at hd
      simp only [bind, Except.bind] at hd
      by_cases hstay : piece = "" ∨ piece = "."
      · rw [if_pos hstay] at hd
        exact .stay hdir hstay (ih hd)
      rw [if_neg hstay] at hd
      by_cases hup : piece = ".."
      · rw [if_pos hup] at hd
        exact hup ▸ .up hdir (ih hd)
      rw [if_neg hup] at hd
      by_cases hlong : maxName < piece.utf8ByteSize
      · rw [if_pos hlong] at hd
        cases hd
      have hname : IsName piece := ⟨fun h => hstay (.inl h), fun h => hstay (.inr h), hup⟩
      rw [walkFrom_name hdir hname hlong] at hwalk
      cases hn : d.node? (here ++ [piece]) with
      | none =>
        rw [hn] at hwalk
        exact .enter hdir hname hlong (by simp [hn]) (ih hwalk)
      | some n =>
        rw [hn] at hwalk
        cases n with
        | link target =>
          dsimp only at hwalk
          by_cases hend : (rest.isEmpty && !follow) = true
          · rw [if_pos hend] at hwalk
            obtain ⟨rfl, rfl⟩ : rest = [] ∧ follow = false := by simpa using hend
            cases hwalk
            exact .rest hdir hname hlong hn rfl
          · rw [if_neg hend] at hwalk
            cases links with
            | zero => cases hwalk
            | succ links =>
              refine .link hdir hname hlong hn ?_ (ih hwalk)
              by_cases hrest : rest = []
              · exact .inr (by simpa [hrest] using hend)
              · exact .inl hrest
        | file | directory | device | program =>
          exact .enter hdir hname hlong (by simp [hn]) (ih hwalk)

theorem Walk.walkFrom (h : Walk d follow fuel links here pieces place) :
    d.walkFrom follow fuel links here pieces = .ok place := by
  induction h with
  | done fuel => cases fuel <;> rfl
  | stay hdir hpiece _ ih =>
    unfold Disk.walkFrom
    rw [hdir]
    simp only [bind, Except.bind]
    rw [if_pos hpiece, ih]
  | up hdir _ ih =>
    unfold Disk.walkFrom
    rw [hdir]
    simp only [bind, Except.bind]
    rw [if_neg (by decide), if_pos trivial, ih]
  | rest hdir hname hlong hnode hfollow =>
    rw [walkFrom_name hdir hname hlong, hnode]
    simp [hfollow]
  | link hdir hname hlong hnode hfollow _ ih =>
    rw [walkFrom_name hdir hname hlong, hnode]
    dsimp only
    rw [if_neg (by rcases hfollow with h | h <;> simp [h]), ih]
  | @enter _ _ here _ piece _ hdir hname hlong hnode _ ih =>
    rw [walkFrom_name hdir hname hlong]
    cases hn : d.node? (here ++ [piece]) with
    | none => exact ih
    | some n =>
      cases n with
      | link target => exact absurd hn (hnode target)
      | file | directory | device | program => exact ih

/-- A walk that is possible leads to the same place on a disk that has more. What is new can
only stand where the walk ends, and there it is not followed, or nothing is new. -/
theorem Walk.of_kept (h : Kept d e) (hd : Walk d follow fuel links here pieces place)
    (hend : follow = true → (d.node? place).isSome) : Walk e follow fuel links here pieces place := by
  induction hd with
  | done => exact .done _ _ _
  | stay hdir hpiece _ ih => exact .stay (requireDirectory_of_kept h hdir) hpiece (ih hend)
  | up hdir _ ih => exact .up (requireDirectory_of_kept h hdir) (ih hend)
  | rest hdir hname hlong hnode hfollow =>
    exact .rest (requireDirectory_of_kept h hdir) hname hlong (h _ _ hnode) hfollow
  | link hdir hname hlong hnode hfollow _ ih =>
    exact .link (requireDirectory_of_kept h hdir) hname hlong (h _ _ hnode) hfollow (ih hend)
  | @enter _ _ here _ piece _ hdir hname hlong hnode hwalk ih =>
    have hdir' := requireDirectory_of_kept h hdir
    cases hn : d.node? (here ++ [piece]) with
    | some n => exact .enter hdir' hname hlong (h _ _ hn ▸ hn ▸ hnode) (ih hend)
    | none =>
      cases hwalk with
      | done =>
        cases follow with
        | true =>
          rw [hn] at hend
          cases hend rfl
        | false =>
          by_cases hlink : ∃ target, e.node? (here ++ [piece]) = some (.link target)
          · obtain ⟨target, hlink⟩ := hlink
            exact .rest hdir' hname hlong hlink rfl
          · exact .enter hdir' hname hlong (not_exists.mp hlink) (.done _ _ _)
      -- nothing is below a place where nothing is, so the walk was not possible
      | stay hbelow | up hbelow | rest hbelow | link hbelow | enter hbelow =>
        simp only [requireDirectory, hn] at hbelow
        cases hbelow

/-- Where something is found by following links, something is found without following the
last one. -/
theorem Walk.unfollowed (h : Walk d true fuel links here pieces place)
    (hend : (d.node? place).isSome) :
    ∃ place, Walk d false fuel links here pieces place ∧ (d.node? place).isSome := by
  induction h with
  | done fuel links here => exact ⟨here, .done _ _ _, hend⟩
  | stay hdir hpiece _ ih =>
    obtain ⟨place, hwalk, hplace⟩ := ih hend
    exact ⟨place, .stay hdir hpiece hwalk, hplace⟩
  | up hdir _ ih =>
    obtain ⟨place, hwalk, hplace⟩ := ih hend
    exact ⟨place, .up hdir hwalk, hplace⟩
  | rest _ _ _ _ hfollow => cases hfollow
  | @link _ _ here _ piece _ rest hdir hname hlong hnode _ _ ih =>
    cases rest with
    | nil => exact ⟨here ++ [piece], .rest hdir hname hlong hnode rfl, by rw [hnode]; rfl⟩
    | cons next rest =>
      obtain ⟨place, hwalk, hplace⟩ := ih hend
      exact ⟨place, .link hdir hname hlong hnode (.inl (List.cons_ne_nil _ _)) hwalk, hplace⟩
  | enter hdir hname hlong hnode _ ih =>
    obtain ⟨place, hwalk, hplace⟩ := ih hend
    exact ⟨place, .enter hdir hname hlong hnode hwalk, hplace⟩

/-- A walk whose last piece names something does not end at the root. -/
theorem Walk.ne_root (h : Walk d false fuel links here pieces place) {name : String}
    (hlast : pieces.getLast? = some name) (hname : IsName name) : place ≠ [] := by
  -- A piece before others is not the last one.
  have hskip {piece : String} {rest : List String} (hpiece : ¬ IsName piece)
      (hlast : (piece :: rest).getLast? = some name) : rest.getLast? = some name := by
    cases rest with
    | nil =>
      cases hlast
      exact absurd hname hpiece
    | cons next rest => rwa [List.getLast?_cons_cons] at hlast
  induction h with
  | done => cases hlast
  | stay _ hpiece _ ih =>
    refine ih (hskip (fun h => ?_) hlast)
    exact hpiece.elim h.nonempty h.notDot
  | up _ _ ih => exact ih (hskip (fun h => h.notDots rfl) hlast)
  | rest => exact List.append_ne_nil_of_right_ne_nil _ (List.cons_ne_nil _ _)
  | @link _ _ _ _ _ _ rest _ _ _ _ hfollow _ ih =>
    obtain ⟨next, more, rfl⟩ :=
      List.exists_cons_of_ne_nil (hfollow.resolve_right Bool.false_ne_true)
    rw [List.getLast?_cons_cons] at hlast
    exact ih (by rw [List.getLast?_append, hlast, Option.some_or])
  | @enter _ _ _ _ _ rest _ _ _ _ hwalk ih =>
    cases rest with
    | nil =>
      cases hwalk
      exact List.append_ne_nil_of_right_ne_nil _ (List.cons_ne_nil _ _)
    | cons next rest =>
      rw [List.getLast?_cons_cons] at hlast
      exact ih hlast

end Walks

theorem walk_of_kept (h : Kept d e) {follow : Bool} {place : Place}
    (hd : d.walk cwd follow path = .ok place) (hend : follow = true → (d.node? place).isSome) :
    e.walk cwd follow path = .ok place := by
  unfold walk at hd ⊢
  split_ifs at hd ⊢ with hzero hempty
  exact ((walk_of_walkFrom hd).of_kept h hend).walkFrom

theorem lookup_of_walk {follow : Bool} {place : Place}
    (hwalk : d.walk cwd follow path = .ok place) (hn : d.node? place = some n) :
    d.lookup cwd follow path = .ok (place, n) := by
  unfold lookup
  rw [hwalk]
  simp only [bind, Except.bind, hn]
  rfl

theorem lookup_of_absent {follow : Bool} {place : Place}
    (hwalk : d.walk cwd follow path = .ok place) (hn : d.node? place = none) :
    d.lookup cwd follow path = .error .notFound := by
  unfold lookup
  rw [hwalk]
  simp only [bind, Except.bind, hn]

theorem walk_of_lookup {follow : Bool} {place : Place}
    (h : d.lookup cwd follow path = .ok (place, n)) :
    d.walk cwd follow path = .ok place ∧ d.node? place = some n := by
  unfold lookup at h
  rcases hwalk : d.walk cwd follow path with err | q
  · rw [hwalk] at h
    cases h
  · rw [hwalk] at h
    simp only [bind, Except.bind] at h
    cases hn : d.node? q with
    | none =>
      rw [hn] at h
      cases h
    | some m =>
      rw [hn] at h
      cases h
      exact ⟨rfl, hn⟩

theorem lookup_of_kept (h : Kept d e) {follow : Bool} {found : Place × Node}
    (hd : d.lookup cwd follow path = .ok found) : e.lookup cwd follow path = .ok found := by
  obtain ⟨place, n⟩ := found
  obtain ⟨hwalk, hn⟩ := walk_of_lookup hd
  exact lookup_of_walk (walk_of_kept h hwalk fun _ => by rw [hn]; rfl) (h _ _ hn)

/-- What is found by following links is found, if only as a link, without following the last
one. -/
theorem lookup_unfollowed {found : Place × Node} (h : d.lookup cwd true path = .ok found) :
    ∃ found, d.lookup cwd false path = .ok found := by
  obtain ⟨place, n⟩ := found
  obtain ⟨hwalk, hn⟩ := walk_of_lookup h
  unfold walk at hwalk
  split_ifs at hwalk with hzero hempty
  obtain ⟨place, hwalk', hplace⟩ := (walk_of_walkFrom hwalk).unfollowed (by rw [hn]; rfl)
  obtain ⟨m, hm⟩ := Option.isSome_iff_exists.mp hplace
  refine ⟨(place, m), lookup_of_walk ?_ hm⟩
  unfold walk
  rw [if_neg hzero, if_neg hempty]
  exact hwalk'.walkFrom

/-- The path ends in a name, so it is not the root. -/
def EndsInName (path : String) : Prop := ∃ name, (piecesOf path).getLast? = some name ∧ IsName name

theorem EndsInName.piecesInFront_eq (h : EndsInName path) : piecesInFront path = piecesOf path := by
  obtain ⟨name, hlast, hname⟩ := h
  obtain ⟨front, hfront⟩ := List.getLast?_eq_some_iff.mp hlast
  rw [piecesInFront, hfront, List.reverse_append, List.reverse_singleton, List.singleton_append,
    List.dropWhile_cons_of_neg (by simpa using hname.nonempty), List.reverse_cons,
    List.reverse_reverse]

/-- A directory that a path ending in a name leads to is named itself. -/
theorem isRoundabout_of_endsInName {place : Place} (hpath : EndsInName path)
    (h : d.lookup cwd false path = .ok (place, .directory)) : d.isRoundabout cwd path = false := by
  obtain ⟨hwalk, hn⟩ := walk_of_lookup h
  unfold walk at hwalk
  split_ifs at hwalk
  obtain ⟨name, hlast, hname⟩ := id hpath
  simp [isRoundabout, hpath.piecesInFront_eq, hwalk, hn, hlast, hname.notDot, hname.notDots,
    Node.isLink]

theorem lookup_ne_root {found : Place × Node} (hpath : EndsInName path)
    (h : d.lookup cwd false path = .ok found) : found.1 ≠ [] := by
  obtain ⟨place, n⟩ := found
  obtain ⟨hwalk, -⟩ := walk_of_lookup h
  obtain ⟨name, hlast, hname⟩ := hpath
  unfold walk at hwalk
  split_ifs at hwalk
  exact (walk_of_walkFrom hwalk).ne_root hlast hname

/-! ## Removals -/

/-- Whether removing what a path leads to takes away what is at a place. -/
def takes (d : Disk) (cwd : Place) (path : String) (q : Place) : Bool :=
  match d.lookup cwd false path with
  | .error _ => false
  | .ok (place, n) =>
    decide (q ≠ []) && place.isPrefixOf q &&
      !(n.isDirectory && d.isRoundabout cwd path && decide (q = place))

theorem node?_remove (d : Disk) (cwd : Place) (path : String) (q : Place) :
    (d.remove cwd path).2.node? q = if d.takes cwd path q then none else d.node? q := by
  by_cases hq : q = []
  · subst hq
    rw [node?_nil, node?_nil, if_neg]
    unfold takes
    split <;> simp
  unfold remove takes
  rcases hlook : d.lookup cwd false path with err | ⟨place, n⟩
  · rfl
  have hprune : (d.prune place).node? q = if place.isPrefixOf q then none else d.node? q := by
    rw [prune, node?_filter d (fun p => !place.isPrefixOf p) hq]
    cases place.isPrefixOf q <;> rfl
  have hclear : (d.clear place).node? q =
      if place.isPrefixOf q && !decide (q = place) then none else d.node? q := by
    rw [clear, node?_filter d (fun p => !(place.isPrefixOf p && p ≠ place)) hq]
    by_cases hp : q = place
    · simp [hp]
    · cases place.isPrefixOf q <;> simp [hp]
  cases n with
  | directory =>
    by_cases hround : d.isRoundabout cwd path = true
    · simp [hround, hclear, Node.isDirectory, hq]
    · simp [hround, hprune, hq]
  | file | link | device | program => simp [hprune, hq, Node.isDirectory]

/-- A removal adds nothing. -/
theorem kept_of_remove (d : Disk) (cwd : Place) (path : String) : Kept (d.remove cwd path).2 d := by
  intro q n hq
  rw [node?_remove] at hq
  split_ifs at hq
  exact hq

theorem isPresent_of_kept (h : Kept d e) (hd : d.isPresent cwd path = true) :
    e.isPresent cwd path = true := by
  unfold isPresent at hd ⊢
  rcases hlook : d.lookup cwd true path with err | found
  · rw [hlook] at hd
    cases hd
  · rw [lookup_of_kept h hlook]
    rfl

/-- What a path leads to is gone after its removal. -/
theorem gone_of_remove (hpath : EndsInName path) :
    (d.remove cwd path).2.isPresent cwd path = false := by
  -- What the path leads to afterwards, it also leads to before; but that was taken.
  rcases hlook : (d.remove cwd path).2.lookup cwd true path with err | found
  · rw [isPresent, hlook]
    rfl
  obtain ⟨⟨place, n⟩, hlook'⟩ := lookup_unfollowed hlook
  have hbefore := lookup_of_kept (kept_of_remove d cwd path) hlook'
  have hleft := (walk_of_lookup hlook').2
  have hroot : place ≠ [] := lookup_ne_root hpath hbefore
  rw [node?_remove, takes, hbefore] at hleft
  have hnamed : (n.isDirectory && d.isRoundabout cwd path) = false := by
    cases n with
    | directory => exact isRoundabout_of_endsInName hpath hbefore
    | file | link | device | program => rfl
  simp [hroot, hnamed] at hleft

/-- A removal leaves everything that another disk holds exactly if it takes nothing of
it. -/
theorem kept_remove_iff (h : Kept d e) :
    Kept d (e.remove cwd path).2 ↔ ∀ q, (d.node? q).isSome → e.takes cwd path q = false := by
  constructor
  · intro hk q hq
    obtain ⟨n, hn⟩ := Option.isSome_iff_exists.mp hq
    have hleft := hk q n hn
    rw [node?_remove] at hleft
    split_ifs at hleft with ht
    exact Bool.eq_false_iff.mpr ht
  · intro hs q n hn
    rw [node?_remove, hs q (Option.isSome_of_eq_some hn)]
    exact h q n hn

/-- A disk after paths were removed one after the other. -/
def removeEach (cwd : Place) : Disk → List String → Disk
  | d, [] => d
  | d, path :: rest => removeEach cwd (d.remove cwd path).2 rest

/-- None of the removals, one after the other, takes anything that the first disk
holds. -/
def Spares (kept : Disk) (cwd : Place) : Disk → List String → Prop
  | _, [] => True
  | d, path :: rest =>
    (∀ q, (kept.node? q).isSome → d.takes cwd path q = false) ∧
      Spares kept cwd (d.remove cwd path).2 rest

theorem kept_of_removeEach (d : Disk) (cwd : Place) (paths : List String) :
    Kept (d.removeEach cwd paths) d := by
  induction paths generalizing d with
  | nil => exact .refl d
  | cons path rest ih => exact (ih _).trans (kept_of_remove d cwd path)

/-- What removals took does not come back, so they leave everything that another disk
holds exactly if each in turn spares it. -/
theorem kept_removeEach_iff (h : Kept d e) (paths : List String) :
    Kept d (e.removeEach cwd paths) ↔ Spares d cwd e paths := by
  induction paths generalizing e with
  | nil => exact ⟨fun _ => trivial, fun _ => h⟩
  | cons path rest ih =>
    constructor
    · intro hk
      have hfirst : Kept d (e.remove cwd path).2 := hk.trans (kept_of_removeEach _ cwd rest)
      exact ⟨(kept_remove_iff h).mp hfirst, (ih hfirst).mp hk⟩
    · rintro ⟨hfirst, hrest⟩
      exact (ih ((kept_remove_iff h).mpr hfirst)).mpr hrest

/-- The path leads to where nothing is. -/
def Fresh (d : Disk) (cwd : Place) (path : String) : Prop :=
  ∃ place, d.walk cwd false path = .ok place ∧ d.node? place = none

/-- Removing a path that was fresh takes nothing of the disk as it was then. -/
theorem takes_of_fresh (htree : d.IsTree) (h : Kept d e) (hfresh : d.Fresh cwd path)
    (hq : (d.node? q).isSome) : e.takes cwd path q = false := by
  obtain ⟨place, hwalk, habsent⟩ := hfresh
  have hbelow : place.isPrefixOf q = false := by
    rw [Bool.eq_false_iff]
    intro hp
    have hbelow := List.isPrefixOf_iff_prefix.mp hp
    rw [htree.none_below habsent hbelow] at hq
    cases hq
  have hwalk' := walk_of_kept h hwalk fun h => absurd h Bool.false_ne_true
  unfold takes
  cases he : e.node? place with
  | none => rw [lookup_of_absent hwalk' he]
  | some n =>
    rw [lookup_of_walk hwalk' he]
    simp [hbelow]

theorem kept_remove_of_fresh (htree : d.IsTree) (hfresh : d.Fresh cwd path) :
    Kept d (e.remove cwd path).2 ↔ Kept d e := by
  constructor
  · intro h
    exact h.trans (kept_of_remove e cwd path)
  · intro h
    exact (kept_remove_iff h).mpr fun q hq => takes_of_fresh htree h hfresh hq

/-! ## Directories that are made -/

/-- The second path is the first one or above it. -/
def OnWay : Path → Path → Prop := Relation.ReflTransGen fun p q => p.parent? = some q

/-- The second disk comes from the first by making directories, each on the way to one of
some goals and where nothing was. -/
inductive Made (cwd : Place) (goals : List Path) : Disk → Disk → Prop where
  | refl (d : Disk) : Made cwd goals d d
  | make {d e f : Disk} {goal p : Path} : Made cwd goals d e → goal ∈ goals → OnWay goal p →
      e.makeDirectory cwd p.text = .ok f → Made cwd goals d f

theorem makeDirectory_ok (h : d.makeDirectory cwd path = .ok e) :
    ∃ place, d.walk cwd false (trimSlashes path) = .ok place ∧ d.node? place = none ∧
      e = d.put place .directory := by
  unfold makeDirectory at h
  rcases hw : d.walk cwd false (trimSlashes path) with err | place
  · rw [hw] at h
    cases h
  · rw [hw] at h
    simp only [bind, Except.bind] at h
    split_ifs at h with hsome
    exact ⟨place, rfl, Option.not_isSome_iff_eq_none.mp hsome, (Except.ok.inj h).symm⟩

/-- Putting a node where nothing is leaves the others. -/
theorem kept_put (d : Disk) (hp : d.node? p = none) : Kept d (d.put p n) := by
  intro q m hq
  rw [node?_put_of_ne]
  · exact hq
  · rintro rfl
    rw [hp] at hq
    cases hq

namespace Made

variable {goals : List Path}

theorem kept (h : Made cwd goals d e) : Kept d e := by
  induction h with
  | refl => exact .refl d
  | make _ _ _ hmake ih =>
    obtain ⟨place, _, hnone, rfl⟩ := makeDirectory_ok hmake
    exact ih.trans (kept_put _ hnone)

/-- What is new is a directory. -/
theorem eq_directory (h : Made cwd goals d e) (hq : e.node? q = some n) :
    d.node? q = some n ∨ n = .directory := by
  induction h generalizing n with
  | refl => exact .inl hq
  | make _ _ _ hmake ih =>
    obtain ⟨place, _, hnone, rfl⟩ := makeDirectory_ok hmake
    by_cases hplace : q = place
    · subst hplace
      have hne : q ≠ [] := by
        rintro rfl
        rw [node?_nil] at hnone
        cases hnone
      rw [node?_put_self _ hne] at hq
      exact .inr (Option.some.inj hq).symm
    · rw [node?_put_of_ne _ hplace] at hq
      exact ih hq

theorem trans (h : Made cwd goals d e) (g : Made cwd goals e f) : Made cwd goals d f := by
  induction g with
  | refl => exact h
  | make _ hgoal hway hmake ih => exact ih.make hgoal hway hmake

/-- Making a directory after those on the way to it makes directories on that way only.
The induction is on the fuel; every round goes one up. -/
theorem makeDirectories {goal p : Path} (hgoal : goal ∈ goals) (hway : OnWay goal p)
    (d : Disk) (fuel : Nat) : Made cwd goals d (d.makeDirectories cwd fuel p.text).2 := by
  induction fuel generalizing p with
  | zero => exact .refl d
  | succ fuel ih =>
    -- a directory that is there already is as good as one that is made
    have hfound (e : Disk) (err : OsError) (he : Made cwd goals d e) : Made cwd goals d
        (if e.isDirectory cwd p.text then (Except.ok (), e) else (Except.error err, e)).2 := by
      by_cases hdir : e.isDirectory cwd p.text = true
      · rw [if_pos hdir]
        exact he
      · rw [if_neg hdir]
        exact he
    unfold Disk.makeDirectories
    by_cases hempty : p.text.isEmpty = true
    · rw [if_pos hempty]
      exact .refl d
    rw [if_neg hempty]
    split
    · next e he => exact (Made.refl d).make hgoal hway he
    · cases hparent : p.parent? with
      | none => exact .refl d
      | some parent =>
        have hup := ih (hway.tail hparent)
        dsimp only
        rcases hmade : d.makeDirectories cwd fuel parent.text with ⟨err | _, e⟩
        · rw [hmade] at hup
          exact hup
        · rw [hmade] at hup
          dsimp only
          cases hlast : e.makeDirectory cwd p.text with
          | ok f => exact hup.make hgoal hway hlast
          | error err => exact hfound e err hup
    · exact hfound d _ (.refl d)

end Made

/-- The second disk holds nothing but what is on the first, and directories on the way to
some goals. -/
def OnlyMade (cwd : Place) (goals : List Path) (d e : Disk) : Prop :=
  ∃ most, Made cwd goals d most ∧ Kept e most

theorem Made.onlyMade {goals : List Path} (h : Made cwd goals d e) : OnlyMade cwd goals d e :=
  ⟨e, h, .refl e⟩

theorem OnlyMade.of_kept {goals : List Path} (h : OnlyMade cwd goals d e) (hk : Kept f e) :
    OnlyMade cwd goals d f := by
  obtain ⟨most, hmade, hmost⟩ := h
  exact ⟨most, hmade, hk.trans hmost⟩

/-- Nothing changes, and what is new is a directory. -/
theorem OnlyMade.eq_directory {goals : List Path} (h : OnlyMade cwd goals d e)
    (hq : e.node? q = some n) : d.node? q = some n ∨ n = .directory := by
  obtain ⟨most, hmade, hmost⟩ := h
  exact hmade.eq_directory (hmost q n hq)

/-- Without slashes at its end, a path that ends in something else is what it was. -/
theorem trimSlashes_of_getLast? {c : Char} (h : path.toList.getLast? = some c) (hc : c ≠ '/') :
    trimSlashes path = path := by
  obtain ⟨front, hfront⟩ := List.getLast?_eq_some_iff.mp h
  have hbody : (path.toList.reverse.dropWhile (· = '/')).reverse = path.toList := by
    rw [hfront, List.reverse_append, List.reverse_singleton, List.singleton_append,
      List.dropWhile_cons_of_neg (by simpa using hc), ← List.singleton_append,
      List.reverse_append, List.reverse_reverse, List.reverse_singleton]
  unfold trimSlashes
  rw [hbody, if_neg]
  · exact String.ofList_toList
  · rw [hfront]
    simp

end Disk

end MediaPipeline.Machine
