import MediaPipeline.Store.Lookup

/-!
# Audio channels

Audio sequences are input tracks, merged in order into one stream whose channels
are numbered from zero. A mapping gives each position of a target layout one
channel of a track, or silence.
-/

namespace MediaPipeline

/-- A named arrangement of channels. -/
structure ChannelLayout where
  name : String
  channels : Nat
deriving DecidableEq

namespace ChannelLayout

/-- The layouts that are known. -/
def all : List ChannelLayout :=
  [⟨"mono", 1⟩, ⟨"stereo", 2⟩, ⟨"downmix", 2⟩, ⟨"2.1", 3⟩, ⟨"3.0", 3⟩, ⟨"3.0(back)", 3⟩,
    ⟨"4.0", 4⟩, ⟨"quad", 4⟩, ⟨"quad(side)", 4⟩, ⟨"3.1", 4⟩, ⟨"2.2", 4⟩, ⟨"5.0", 5⟩,
    ⟨"5.0(side)", 5⟩, ⟨"4.1", 5⟩, ⟨"5.1", 6⟩, ⟨"5.1(side)", 6⟩, ⟨"6.0", 6⟩, ⟨"6.0(front)", 6⟩,
    ⟨"hexagonal", 6⟩, ⟨"6.1", 7⟩, ⟨"6.1(back)", 7⟩, ⟨"6.1(front)", 7⟩, ⟨"7.0", 7⟩,
    ⟨"7.0(front)", 7⟩, ⟨"7.1", 8⟩, ⟨"7.1(wide)", 8⟩, ⟨"7.1(wide-side)", 8⟩, ⟨"octagonal", 8⟩]

/-- The layout with a name, the case of ASCII letters aside. -/
def ofName? (name : String) : Option ChannelLayout :=
  all.find? fun l => Text.lowercaseAscii l.name.toList = Text.lowercaseAscii name.toList

end ChannelLayout

/-- What feeds one position of a layout. -/
inductive OutputChannel where
  /-- A channel of a track, both counted from one. -/
  | source (track channel : Nat)
  | silence
deriving DecidableEq

/-- A position counted from one. -/
def parsePosition (cs : List Char) : Option Nat :=
  (Text.size? (Text.trim cs)).filter (0 < ·)

/-- The pair of positions around the first colon. -/
def parsePositions (cs : List Char) : Option OutputChannel :=
  match cs.span (· ≠ ':') with
  | (_, []) => none
  | (track, _ :: channel) => do
    let t ← parsePosition track
    let c ← parsePosition channel
    pure (.source t c)

/-- An entry of a mapping: `TRACK:CHANNEL` or `silence`. -/
def OutputChannel.parse (s : String) : Except Cause OutputChannel :=
  let body := Text.trim s.toList
  if Text.lowercaseAscii body = "silence".toList then .ok .silence
  else
    match parsePositions body with
    | some c => .ok c
    | none => .error (.config (.badMappingEntry (String.ofList body)))

/-- Fill so many positions from the tracks from `track` on, in order; positions
that are left over are silent. -/
def fillPositions : Nat → Nat → List Nat → List OutputChannel
  | room, _, [] => List.replicate room .silence
  | room, track, n :: rest =>
    (List.range (min n room)).map (fun c => .source track (c + 1)) ++
      fillPositions (room - n) (track + 1) rest

/-- The mapping that is used when none is given. -/
def defaultMapping (tracks : List Nat) (layout : ChannelLayout) : List OutputChannel :=
  fillPositions layout.channels 1 tracks

/-- The sum of two sizes. If that is too large for a size, the program stops. -/
def addSizes (a b : Nat) : Except Cause Nat :=
  if a + b < Text.sizeLimit then .ok (a + b) else .error (.overflow "add")

/-- The size before another one. If there is none, the program stops. -/
def sizeBefore : Nat → Except Cause Nat
  | 0 => .error (.overflow "subtract")
  | n + 1 => .ok n

/-- The number of a track's channel in the merged stream, in 64-bit arithmetic. -/
def mergedChannel (tracks : List Nat) (track channel : Nat) : Except Cause Nat := do
  let offset ← (tracks.take (track - 1)).foldlM addSizes 0
  let next ← addSizes offset channel
  sizeBefore next

/-- What one position of the mapping is set to. -/
def positionText (tracks : List Nat) (position : Nat) : OutputChannel → Except Cause String
  | .silence => .ok ("|c" ++ Text.showNat position ++ "=0*c0")
  | .source track channel =>
    match if track = 0 then none else tracks[track - 1]? with
    | none => .error (.config (.noSuchTrack track tracks.length))
    | some available =>
      if channel ≤ available then do
        let number ← mergedChannel tracks track channel
        pure ("|c" ++ Text.showNat position ++ "=c" ++ Text.showNat number)
      else .error (.config (.noSuchChannel track available channel))

/-- The texts of the positions from `position` on. -/
def positionTexts (tracks : List Nat) : Nat → List OutputChannel → Except Cause (List String)
  | _, [] => .ok []
  | position, entry :: rest => do
    let here ← positionText tracks position entry
    let more ← positionTexts tracks (position + 1) rest
    pure (here :: more)

/-- The expression that makes a mapping: the number of channels, then one term
for each position. -/
def panParameter (tracks : List Nat) (layout : ChannelLayout) (mapping : List OutputChannel) :
    Except Cause String :=
  if mapping.length ≠ layout.channels then
    .error (.config (.mappingLength layout.name layout.channels mapping.length))
  else do
    let terms ← positionTexts tracks 0 mapping
    pure (Text.showNat layout.channels ++ "c" ++ String.join terms)

/-- The parameter that holds the number of channels of a sequence. -/
def channelsParam : String := "channels"

/-- The number of channels of an audio sequence. -/
def channelCount (store : Store) (id : SequenceId) : Except Cause Nat :=
  match store.getParameter .sequence (Scope.global.withSequence .audio id) channelsParam with
  | .error missing => .error missing.toCause
  | .ok value =>
    match Text.size? (Text.trim value.toList) with
    | some n => .ok n
    | none => .error (.config (.badChannelCount id value))

/-- The numbers of channels of all audio sequences, in order. -/
def trackChannels (store : Store) : Except Cause (List Nat) :=
  (store.sequenceIds .audio).mapM (channelCount store)

/-- The parameters on which the resources of an audio sequence must agree. -/
def audioParams : List String := ["channels", "channel_layout", "sample_rate"]

/-- Require the resources of every audio sequence to agree. -/
def checkAudioHomogeneity (store : Store) : Except Cause Unit :=
  (store.sequenceIds .audio).forM fun id => store.checkHomogeneous .audio id audioParams

end MediaPipeline
