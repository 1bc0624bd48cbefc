import MediaPipeline.Audio
import Mathlib.Algebra.GroupWithZero.Nat

/-!
# Channel mappings

The channels of all tracks are numbered one after the other in the merged stream;
`exactChannel` is that number. A mapping of entries that were read from text fits exactly if it
has an entry for each channel of the layout and no entry asks for a channel that is not there.
What comes of it is said by `panParameter_parsed`: its numbers are exact and tell entries apart,
but the sums that lead to them are sums of 64-bit words, and one that is too large stops the
program. The counts of channels are not bounded, so that this can happen to a mapping that fits
(`panParameter_overflows`).
-/

namespace MediaPipeline

/-! ## Numbers in the merged stream -/

/-- The number of a track's channel in the merged stream: the channels of the tracks before it
come first. -/
def exactChannel (tracks : List Nat) (track channel : Nat) : Nat :=
  (tracks.take (track - 1)).sum + (channel - 1)

/-- The sums on the way to that number, before the one is taken off: the tracks before it, one
after the other, and the channel. -/
def partialSums (tracks : List Nat) (track channel : Nat) : List Nat :=
  (List.range track).map (fun k => (tracks.take k).sum) ++
    [(tracks.take (track - 1)).sum + channel]

/-- No sum on the way to a number is too large for a 64-bit word. -/
def SumsFit (tracks : List Nat) (track channel : Nat) : Prop :=
  ∀ n ∈ partialSums tracks track channel, n < 2 ^ 64

instance (tracks : List Nat) (track channel : Nat) : Decidable (SumsFit tracks track channel) :=
  inferInstanceAs (Decidable (∀ n ∈ partialSums tracks track channel, n < 2 ^ 64))

/-- There is such a track, and it has such a channel, both counted from one. -/
structure InTrack (tracks : List Nat) (track channel : Nat) : Prop where
  track_pos : 0 < track
  channel_pos : 0 < channel
  available : ∃ n, tracks[track - 1]? = some n ∧ channel ≤ n

section Numbers

variable {tracks : List Nat} {track channel track' channel' : Nat}

theorem sum_take_mono (tracks : List Nat) {i j : Nat} (h : i ≤ j) :
    (tracks.take i).sum ≤ (tracks.take j).sum := by
  obtain ⟨d, rfl⟩ := Nat.exists_eq_add_of_le h
  rw [List.take_add, List.sum_append]
  omega

/-- The channels of a track come before those of the next one. -/
theorem InTrack.exactChannel_lt (h : InTrack tracks track channel) :
    exactChannel tracks track channel < (tracks.take track).sum := by
  obtain ⟨n, hn, hchannel⟩ := h.available
  have htrack := h.track_pos
  have hpos := h.channel_pos
  have htake : (tracks.take (track - 1 + 1)).sum = (tracks.take (track - 1)).sum + n := by
    rw [List.take_add_one, hn, List.sum_append]
    simp
  rw [Nat.sub_add_cancel htrack] at htake
  rw [exactChannel, htake]
  omega

theorem InTrack.exactChannel_lt_sum (h : InTrack tracks track channel) :
    exactChannel tracks track channel < tracks.sum := by
  have hle := sum_take_mono tracks (Nat.le_max_left track tracks.length)
  rw [List.take_of_length_le (Nat.le_max_right track tracks.length)] at hle
  exact Nat.lt_of_lt_of_le h.exactChannel_lt hle

/-- A channel of an earlier track has a lower number. -/
theorem InTrack.exactChannel_lt_of_track_lt (h : InTrack tracks track channel)
    (hlt : track < track') (channel' : Nat) :
    exactChannel tracks track channel < exactChannel tracks track' channel' := by
  have hle := sum_take_mono tracks (show track ≤ track' - 1 by omega)
  have hnumber := h.exactChannel_lt
  rw [exactChannel.eq_1 tracks track']
  omega

/-- Different channels have different numbers. -/
theorem InTrack.eq_of_exactChannel_eq (h : InTrack tracks track channel)
    (h' : InTrack tracks track' channel')
    (heq : exactChannel tracks track channel = exactChannel tracks track' channel') :
    track = track' ∧ channel = channel' := by
  rcases Nat.lt_trichotomy track track' with hlt | rfl | hlt
  · have hnumber := h.exactChannel_lt_of_track_lt hlt channel'
    omega
  · have hpos := h.channel_pos
    have hpos' := h'.channel_pos
    simp only [exactChannel] at heq
    exact ⟨rfl, by omega⟩
  · have hnumber := h'.exactChannel_lt_of_track_lt hlt channel
    omega

theorem mem_partialSums {n : Nat} :
    n ∈ partialSums tracks track channel ↔
      (∃ k < track, (tracks.take k).sum = n) ∨ n = (tracks.take (track - 1)).sum + channel := by
  simp [partialSums]

/-- The last sum on the way is the largest. -/
theorem sumsFit_iff (tracks : List Nat) (track : Nat) (hpos : 0 < channel) :
    SumsFit tracks track channel ↔ exactChannel tracks track channel + 1 < 2 ^ 64 := by
  have hlast : exactChannel tracks track channel + 1 =
      (tracks.take (track - 1)).sum + channel := by
    rw [exactChannel]
    omega
  constructor
  · intro h
    exact hlast ▸ h _ (mem_partialSums.mpr (.inr rfl))
  · intro h n hn
    rcases mem_partialSums.mp hn with ⟨k, hk, rfl⟩ | rfl
    · have hle := sum_take_mono tracks (show k ≤ track - 1 by omega)
      omega
    · omega

theorem InTrack.sumsFit (h : InTrack tracks track channel) (hsum : tracks.sum < 2 ^ 64) :
    SumsFit tracks track channel := by
  have hlt := h.exactChannel_lt_sum
  exact (sumsFit_iff tracks track h.channel_pos).mpr (by omega)

/-- Sizes are added up to their sum, unless that is too large. -/
theorem foldlM_addSizes (sizes : List Nat) {a : Nat} (ha : a < Text.sizeLimit) :
    sizes.foldlM addSizes a =
      if a + sizes.sum < Text.sizeLimit then .ok (a + sizes.sum)
      else .error (.overflow "add") := by
  induction sizes generalizing a with
  | nil =>
    rw [List.sum_nil, Nat.add_zero, if_pos ha]
    rfl
  | cons size rest ih =>
    rw [List.foldlM_cons, addSizes, List.sum_cons, ← Nat.add_assoc]
    by_cases hsize : a + size < Text.sizeLimit
    · rw [if_pos hsize]
      exact ih hsize
    · rw [if_neg hsize, if_neg (by omega)]
      rfl

/-- The number that a mapping uses is the exact one, unless a sum on the way is too large. -/
theorem mergedChannel_eq (tracks : List Nat) (track : Nat) (hpos : 0 < channel) :
    mergedChannel tracks track channel =
      if SumsFit tracks track channel then .ok (exactChannel tracks track channel)
      else .error (.overflow "add") := by
  have hlimit : Text.sizeLimit = 2 ^ 64 := rfl
  have hsum := sumsFit_iff tracks track hpos
  rw [exactChannel] at hsum
  rw [mergedChannel, foldlM_addSizes _ (by decide : 0 < Text.sizeLimit), Nat.zero_add]
  by_cases hs : SumsFit tracks track channel
  · have hlt := hsum.mp hs
    have hnext : (tracks.take (track - 1)).sum + channel =
        exactChannel tracks track channel + 1 := by
      rw [exactChannel]
      omega
    rw [if_pos hs, if_pos (by omega)]
    show (addSizes _ channel >>= sizeBefore) = _
    rw [addSizes, if_pos (by omega), hnext]
    rfl
  · rw [hsum] at hs
    rw [if_neg (mt hsum.mp hs)]
    by_cases hoffset : (tracks.take (track - 1)).sum < Text.sizeLimit
    · rw [if_pos hoffset]
      show (addSizes _ channel >>= sizeBefore) = _
      rw [addSizes, if_neg (by omega)]
      rfl
    · rw [if_neg hoffset]
      rfl

end Numbers

/-! ## Expressions -/

/-- What a position is set to, if a channel of a track has this number. -/
def termText (numberOf : Nat → Nat → Nat) (position : Nat) : OutputChannel → String
  | .silence => "|c" ++ Text.showNat position ++ "=0*c0"
  | .source track channel =>
    "|c" ++ Text.showNat position ++ "=c" ++ Text.showNat (numberOf track channel)

/-- The expression of a mapping: how many channels there are, then one term for each. -/
def expression (numberOf : Nat → Nat → Nat) (mapping : List OutputChannel) : String :=
  Text.showNat mapping.length ++ "c" ++
    String.join (mapping.zipIdx.map fun p => termText numberOf p.2 p.1)

/-- An entry asks for nothing that is not there. -/
def OutputChannel.Fits (tracks : List Nat) : OutputChannel → Prop
  | .silence => True
  | .source track channel => InTrack tracks track channel

/-- No sum on the way to the number of an entry is too large. -/
def OutputChannel.InRange (tracks : List Nat) : OutputChannel → Prop
  | .silence => True
  | .source track channel => SumsFit tracks track channel

/-- An entry counts channels from one. -/
def OutputChannel.CountsFromOne : OutputChannel → Prop
  | .silence => True
  | .source _ channel => 0 < channel

/-- What holds of all entries that are not silent, and of silence, holds of all entries. -/
theorem forall_entry_iff {p : OutputChannel → Prop} (hsilence : p .silence)
    {mapping : List OutputChannel} :
    (∀ entry ∈ mapping, p entry) ↔
      ∀ track channel, .source track channel ∈ mapping → p (.source track channel) := by
  constructor
  · exact fun h track channel hmem => h _ hmem
  · intro h entry hmem
    cases entry with
    | silence => exact hsilence
    | source track channel => exact h track channel hmem

section Expressions

variable {tracks : List Nat} {layout : ChannelLayout} {mapping : List OutputChannel}
  {entry : OutputChannel} {track channel position : Nat}

theorem positionText_of_inTrack (h : InTrack tracks track channel) :
    positionText tracks position (.source track channel) =
      if SumsFit tracks track channel then
        .ok (termText (exactChannel tracks) position (.source track channel))
      else .error (.overflow "add") := by
  obtain ⟨n, hn, hchannel⟩ := h.available
  rw [positionText, if_neg (Nat.pos_iff_ne_zero.mp h.track_pos), hn]
  simp only [if_pos hchannel, mergedChannel_eq tracks track h.channel_pos]
  split <;> rfl

/-- An entry that asks for what is not there is refused before anything is added up. -/
theorem positionText_of_not_inTrack (position : Nat) (hpos : 0 < channel)
    (h : ¬ InTrack tracks track channel) :
    ∃ fault, positionText tracks position (.source track channel) = .error (.config fault) := by
  rw [positionText]
  by_cases htrack : track = 0
  · exact ⟨_, by rw [if_pos htrack]⟩
  · rw [if_neg htrack]
    cases hn : tracks[track - 1]? with
    | none => exact ⟨_, rfl⟩
    | some n =>
      have hchannel : ¬ channel ≤ n := fun hle =>
        h ⟨Nat.pos_of_ne_zero htrack, hpos, n, hn, hle⟩
      exact ⟨_, if_neg hchannel⟩

theorem positionText_eq_ok {text : String} (hpos : entry.CountsFromOne) :
    positionText tracks position entry = .ok text ↔ (entry.Fits tracks ∧ entry.InRange tracks) ∧
      text = termText (exactChannel tracks) position entry := by
  cases entry with
  | silence =>
    simp [positionText, OutputChannel.Fits, OutputChannel.InRange, termText, eq_comm]
  | source track channel =>
    rw [OutputChannel.Fits, OutputChannel.InRange]
    by_cases hin : InTrack tracks track channel
    · rw [positionText_of_inTrack hin]
      by_cases hsum : SumsFit tracks track channel
      · simp [hin, hsum, eq_comm]
      · simp [hsum]
    · obtain ⟨fault, hfault⟩ := positionText_of_not_inTrack position hpos hin
      simp [hfault, hin]

/-- The program stops at an entry that fits and whose number is the end of a sum that is too
large. -/
theorem positionText_eq_overflow (hpos : entry.CountsFromOne) :
    positionText tracks position entry = .error (.overflow "add") ↔
      entry.Fits tracks ∧ ¬ entry.InRange tracks := by
  cases entry with
  | silence => simp [positionText, OutputChannel.InRange]
  | source track channel =>
    rw [OutputChannel.Fits, OutputChannel.InRange]
    by_cases hin : InTrack tracks track channel
    · rw [positionText_of_inTrack hin]
      by_cases hsum : SumsFit tracks track channel
      · simp [hsum]
      · simp [hin, hsum]
    · obtain ⟨fault, hfault⟩ := positionText_of_not_inTrack position hpos hin
      simp [hfault, hin]

theorem positionTexts_eq_ok {texts : List String} (hpos : ∀ entry ∈ mapping, entry.CountsFromOne) :
    positionTexts tracks position mapping = .ok texts ↔
      (∀ entry ∈ mapping, entry.Fits tracks ∧ entry.InRange tracks) ∧
      texts = (mapping.zipIdx position).map fun p => termText (exactChannel tracks) p.2 p.1 := by
  induction mapping generalizing position texts with
  | nil => simp [positionTexts, eq_comm]
  | cons entry rest ih =>
    obtain ⟨hentry, hrest⟩ := List.forall_mem_cons.mp hpos
    rw [positionTexts, List.forall_mem_cons, List.zipIdx_cons, List.map_cons]
    constructor
    · intro h
      obtain ⟨here, hhere, h⟩ := bind_eq_ok.mp h
      obtain ⟨more, hmore, h⟩ := bind_eq_ok.mp h
      obtain ⟨hfits, rfl⟩ := (positionText_eq_ok hentry).mp hhere
      obtain ⟨hothers, rfl⟩ := (ih hrest).mp hmore
      exact ⟨⟨hfits, hothers⟩, (Except.ok.inj h).symm⟩
    · rintro ⟨⟨hfits, hothers⟩, rfl⟩
      exact bind_eq_ok.mpr ⟨_, (positionText_eq_ok hentry).mpr ⟨hfits, rfl⟩,
        bind_eq_ok.mpr ⟨_, (ih hrest).mpr ⟨hothers, rfl⟩, rfl⟩⟩

/-- The first entry that cannot be set decides. -/
theorem positionTexts_eq_error {cause : Cause} (hpos : ∀ entry ∈ mapping, entry.CountsFromOne) :
    positionTexts tracks position mapping = .error cause ↔
      ∃ before entry after, mapping = before ++ entry :: after ∧
        (∀ e ∈ before, e.Fits tracks ∧ e.InRange tracks) ∧
        positionText tracks (position + before.length) entry = .error cause := by
  induction mapping generalizing position with
  | nil => simp [positionTexts]
  | cons first rest ih =>
    obtain ⟨hfirst, hrest⟩ := List.forall_mem_cons.mp hpos
    rw [positionTexts]
    cases hhere : positionText tracks position first with
    | error c =>
      constructor
      · intro h
        cases h
        exact ⟨[], first, rest, rfl, fun e he => absurd he List.not_mem_nil, hhere⟩
      · rintro ⟨before, entry, after, hmapping, hbefore, hentry⟩
        cases before with
        | nil =>
          obtain ⟨rfl, -⟩ := List.cons.inj hmapping
          cases hhere.symm.trans hentry
          rfl
        | cons e before =>
          obtain ⟨rfl, -⟩ := List.cons.inj hmapping
          have hok : positionText tracks position first = .ok _ :=
            (positionText_eq_ok hfirst).mpr ⟨hbefore _ List.mem_cons_self, rfl⟩
          cases hhere.symm.trans hok
    | ok text =>
      have hfits := ((positionText_eq_ok hfirst).mp hhere).1
      refine bind_pure_eq_error.trans ((ih hrest).trans ⟨?_, ?_⟩)
      · rintro ⟨before, entry, after, rfl, hbefore, hentry⟩
        refine ⟨first :: before, entry, after, rfl, List.forall_mem_cons.mpr ⟨hfits, hbefore⟩, ?_⟩
        rwa [List.length_cons, Nat.add_comm before.length, ← Nat.add_assoc]
      · rintro ⟨before, entry, after, hmapping, hbefore, hentry⟩
        cases before with
        | nil =>
          obtain ⟨rfl, -⟩ := List.cons.inj hmapping
          cases hhere.symm.trans hentry
        | cons e before =>
          obtain ⟨rfl, rfl⟩ := List.cons.inj hmapping
          refine ⟨before, entry, after, rfl, (List.forall_mem_cons.mp hbefore).2, ?_⟩
          rwa [List.length_cons, Nat.add_comm before.length, ← Nat.add_assoc] at hentry

/-- A mapping is accepted if it has as many entries as the layout has channels, each of them
fits, and no sum is too large. -/
theorem panParameter_eq_ok {text : String} (hpos : ∀ entry ∈ mapping, entry.CountsFromOne) :
    panParameter tracks layout mapping = .ok text ↔ mapping.length = layout.channels ∧
      (∀ entry ∈ mapping, entry.Fits tracks ∧ entry.InRange tracks) ∧
      text = expression (exactChannel tracks) mapping := by
  rw [panParameter, expression]
  by_cases hlength : mapping.length = layout.channels
  · rw [if_neg fun hne => hne hlength, hlength, bind_eq_ok]
    constructor
    · rintro ⟨terms, hterms, htext⟩
      obtain ⟨hfits, rfl⟩ := (positionTexts_eq_ok hpos).mp hterms
      exact ⟨rfl, hfits, (Except.ok.inj htext).symm⟩
    · rintro ⟨-, hfits, rfl⟩
      exact ⟨_, (positionTexts_eq_ok hpos).mpr ⟨hfits, rfl⟩, rfl⟩
  · simp [hlength]

/-- The program stops if all is well up to an entry that fits and whose number is the end of a
sum that is too large. -/
theorem panParameter_eq_overflow (hpos : ∀ entry ∈ mapping, entry.CountsFromOne) :
    panParameter tracks layout mapping = .error (.overflow "add") ↔
      mapping.length = layout.channels ∧ ∃ before entry after, mapping = before ++ entry :: after ∧
        (∀ e ∈ before, e.Fits tracks ∧ e.InRange tracks) ∧
        entry.Fits tracks ∧ ¬ entry.InRange tracks := by
  rw [panParameter]
  by_cases hlength : mapping.length = layout.channels
  · rw [if_neg fun hne => hne hlength, bind_pure_eq_error, positionTexts_eq_error hpos,
      and_iff_right hlength]
    refine exists_congr fun before => exists_congr fun entry => exists_congr fun after =>
      and_congr_right fun hmapping => and_congr_right fun _ => positionText_eq_overflow ?_
    exact hpos entry (by simp [hmapping])
  · simp [hlength]

end Expressions

/-! ## Entries that were read from text -/

theorem parsePosition_pos {cs : List Char} {n : Nat} (h : parsePosition cs = some n) : 0 < n := by
  obtain ⟨-, hpos⟩ := Option.filter_eq_some_iff.mp h
  exact of_decide_eq_true hpos

/-- The channel of an entry that was read counts from one. -/
theorem channel_pos_of_parse {s : String} {track channel : Nat}
    (h : OutputChannel.parse s = .ok (.source track channel)) : 0 < channel := by
  simp only [OutputChannel.parse] at h
  split at h
  · cases h
  · split at h
    · next entry hentry =>
      obtain rfl := Except.ok.inj h
      unfold parsePositions at hentry
      split at hentry
      · cases hentry
      · next before after _ =>
        obtain ⟨t, ht, hentry⟩ := Option.bind_eq_some_iff.mp hentry
        obtain ⟨c, hc, hentry⟩ := Option.bind_eq_some_iff.mp hentry
        cases hentry
        exact parsePosition_pos hc
    · cases h

theorem countsFromOne_of_parse {s : String} {entry : OutputChannel}
    (h : OutputChannel.parse s = .ok entry) : entry.CountsFromOne := by
  cases entry with
  | silence => trivial
  | source track channel => exact channel_pos_of_parse h

/-- What a mapping of entries that were read from text comes to, for any counts of channels. -/
structure MappingOutcome (tracks : List UInt64) (layout : ChannelLayout)
    (mapping : List OutputChannel) : Prop where
  /-- It is accepted if it has as many entries as the layout has channels, every entry that is
  not silent names a track and a channel that this track has, and no sum on the way to its
  number is too large. -/
  accepted : (∃ text, panParameter (tracks.map UInt64.toNat) layout mapping = .ok text) ↔
    mapping.length = layout.channels ∧ ∀ track channel, .source track channel ∈ mapping →
      InTrack (tracks.map UInt64.toNat) track channel ∧
      SumsFit (tracks.map UInt64.toNat) track channel
  /-- Every position is then set to silence or to the exact number. -/
  exact : ∀ text, panParameter (tracks.map UInt64.toNat) layout mapping = .ok text →
    text = expression (exactChannel (tracks.map UInt64.toNat)) mapping
  /-- Different entries have different numbers. -/
  distinct : ∀ track channel track' channel',
    InTrack (tracks.map UInt64.toNat) track channel →
    InTrack (tracks.map UInt64.toNat) track' channel' →
    exactChannel (tracks.map UInt64.toNat) track channel =
      exactChannel (tracks.map UInt64.toNat) track' channel' → track = track' ∧ channel = channel'
  /-- The program stops if there are as many entries as channels and all is well up to an entry
  that asks for what is there, where a sum on the way to its number is too large. -/
  stops : panParameter (tracks.map UInt64.toNat) layout mapping = .error (.overflow "add") ↔
    mapping.length = layout.channels ∧ ∃ before track channel after,
      mapping = before ++ .source track channel :: after ∧
      (∀ t c, .source t c ∈ before → InTrack (tracks.map UInt64.toNat) t c ∧
        SumsFit (tracks.map UInt64.toNat) t c) ∧
      InTrack (tracks.map UInt64.toNat) track channel ∧
      ¬ SumsFit (tracks.map UInt64.toNat) track channel
  /-- No sum is too large as long as the number after the exact one is a word. -/
  sums : ∀ track channel, .source track channel ∈ mapping →
    (SumsFit (tracks.map UInt64.toNat) track channel ↔
      exactChannel (tracks.map UInt64.toNat) track channel + 1 < 2 ^ 64)
  /-- So it never is if all channels together can be counted in a word. -/
  bounded : (tracks.map UInt64.toNat).sum < 2 ^ 64 → ∀ track channel,
    InTrack (tracks.map UInt64.toNat) track channel →
    SumsFit (tracks.map UInt64.toNat) track channel

/-- Whatever the counts of channels, the layout and the entries, as long as these were read from
text. -/
theorem panParameter_parsed (tracks : List UInt64) (layout : ChannelLayout)
    {mapping : List OutputChannel}
    (hparsed : ∀ entry ∈ mapping, ∃ text, OutputChannel.parse text = .ok entry) :
    MappingOutcome tracks layout mapping := by
  have hpos : ∀ entry ∈ mapping, entry.CountsFromOne := by
    intro entry hmem
    obtain ⟨text, htext⟩ := hparsed entry hmem
    exact countsFromOne_of_parse htext
  have hentries {ms : List OutputChannel} :
      (∀ entry ∈ ms, entry.Fits (tracks.map UInt64.toNat) ∧
        entry.InRange (tracks.map UInt64.toNat)) ↔
      ∀ track channel, .source track channel ∈ ms →
        InTrack (tracks.map UInt64.toNat) track channel ∧
        SumsFit (tracks.map UInt64.toNat) track channel :=
    forall_entry_iff ⟨trivial, trivial⟩
  exact {
    accepted := by
      simp only [panParameter_eq_ok hpos, hentries]
      exact ⟨fun ⟨_, hlength, hin, _⟩ => ⟨hlength, hin⟩,
        fun ⟨hlength, hin⟩ => ⟨_, hlength, hin, rfl⟩⟩
    exact := fun text h => ((panParameter_eq_ok hpos).mp h).2.2
    distinct := fun _ _ _ _ h h' heq => h.eq_of_exactChannel_eq h' heq
    stops := by
      rw [panParameter_eq_overflow hpos]
      refine and_congr_right fun _ => exists_congr fun before => ?_
      constructor
      · rintro ⟨entry, after, hmapping, hbefore, hfits, hsum⟩
        cases entry with
        | silence => exact absurd trivial hsum
        | source track channel =>
          exact ⟨track, channel, after, hmapping, hentries.mp hbefore, hfits, hsum⟩
      · rintro ⟨track, channel, after, hmapping, hbefore, hin, hsum⟩
        exact ⟨.source track channel, after, hmapping, hentries.mpr hbefore, hin, hsum⟩
    sums := fun track channel hmem => sumsFit_iff _ _ (hpos _ hmem)
    bounded := fun hsum track channel hin => hin.sumsFit hsum }

/-- Two tracks of two channels, the first one with its channels swapped. -/
theorem panParameter_parsed_swapped :
    (∀ entry ∈ [.source 1 2, .source 1 1, .source 2 2, .silence],
      ∃ text, OutputChannel.parse text = .ok entry) ∧
    MappingOutcome [2, 2] ⟨"quad", 4⟩ [.source 1 2, .source 1 1, .source 2 2, .silence] ∧
    panParameter [2, 2] ⟨"quad", 4⟩ [.source 1 2, .source 1 1, .source 2 2, .silence] =
      .ok "4c|c0=c1|c1=c0|c2=c3|c3=0*c0" := by
  have hparsed : ∀ entry ∈ [OutputChannel.source 1 2, .source 1 1, .source 2 2, .silence],
      ∃ text, OutputChannel.parse text = .ok entry := by
    intro entry hentry
    simp only [List.mem_cons, List.not_mem_nil, or_false] at hentry
    rcases hentry with rfl | rfl | rfl | rfl
    · exact ⟨"1:2", by rfl⟩
    · exact ⟨"1:1", by rfl⟩
    · exact ⟨"2:2", by rfl⟩
    · exact ⟨"silence", by rfl⟩
  exact ⟨hparsed, panParameter_parsed [2, 2] ⟨"quad", 4⟩ hparsed, by rfl⟩

/-- A first track with as many channels as can be counted takes the second channel of the second
track beyond the limit: both entries ask for what is there, but their sum stops the program. -/
theorem panParameter_overflows :
    Text.size? "18446744073709551615".toList = some 18446744073709551615 ∧
    OutputChannel.parse "1:1" = .ok (.source 1 1) ∧
    OutputChannel.parse "2:2" = .ok (.source 2 2) ∧
    InTrack [18446744073709551615, 2] 1 1 ∧ InTrack [18446744073709551615, 2] 2 2 ∧
    exactChannel [18446744073709551615, 2] 2 2 = 18446744073709551616 ∧
    panParameter [18446744073709551615, 2] ⟨"stereo", 2⟩ [.source 1 1, .source 2 2] =
      .error (.overflow "add") := by
  refine ⟨by rfl, by rfl, by rfl, ?_, ?_, by rfl, by rfl⟩
  · exact ⟨by decide, by decide, _, rfl, by decide⟩
  · exact ⟨by decide, by decide, _, rfl, by decide⟩

end MediaPipeline
