import Mathlib.Data.List.Basic
import Mathlib.Data.UInt

namespace NovaVe

def telnetIac : UInt8 := 255
def telnetSb : UInt8 := 250
def telnetSe : UInt8 := 240

/-- WILL, WONT, DO, DONT. -/
def telnetOptionCommands : List UInt8 := [251, 252, 253, 254]

inductive TelnetState
  | data
  | iac
  | option
  | subnegotiation
  | subnegotiationIac
deriving DecidableEq, Repr

/-- One byte in `feed`: the state after it, and the output with what it adds. -/
def telnetStep (s : TelnetState × List UInt8) (byte : UInt8) : TelnetState × List UInt8 :=
  match s.1 with
  | .data => if byte = telnetIac then (.iac, s.2) else (.data, s.2 ++ [byte])
  | .iac =>
    if byte = telnetIac then (.data, s.2 ++ [telnetIac])
    else if telnetOptionCommands.contains byte then (.option, s.2)
    else if byte = telnetSb then (.subnegotiation, s.2)
    else (.data, s.2)
  | .option => (.data, s.2)
  | .subnegotiation =>
    if byte = telnetIac then (.subnegotiationIac, s.2) else (.subnegotiation, s.2)
  | .subnegotiationIac =>
    if byte = telnetSe then (.data, s.2) else (.subnegotiation, s.2)

/-- `_TelnetInputFilter.feed`: the state it leaves, and the bytes it returns. -/
def telnetFeed (state : TelnetState) (data : List UInt8) : TelnetState × List UInt8 :=
  data.foldl telnetStep (state, [])

/-- The chunks are fed one by one; what each returns is put together. -/
def telnetFeedChunks (state : TelnetState) (chunks : List (List UInt8)) :
    TelnetState × List UInt8 :=
  chunks.foldl (fun s chunk => ((telnetFeed s.1 chunk).1, s.2 ++ (telnetFeed s.1 chunk).2))
    (state, [])

/-- What a client sends: a byte of data, a command of two bytes, an option that is negotiated, or a
subnegotiation. -/
inductive TelnetItem
  | data (byte : UInt8)
  | command (code : UInt8) (plain : code ≠ telnetIac ∧ code ∉ telnetOptionCommands ∧ code ≠ telnetSb)
  | option (code : UInt8) (known : code ∈ telnetOptionCommands) (number : UInt8)
  | subnegotiation (payload : List UInt8)

/-- A byte of data on the wire: 255 is doubled. -/
def escapeByte (byte : UInt8) : List UInt8 :=
  if byte = telnetIac then [telnetIac, telnetIac] else [byte]

def TelnetItem.wire : TelnetItem → List UInt8
  | .data byte => escapeByte byte
  | .command code _ => [telnetIac, code]
  | .option code _ number => [telnetIac, code, number]
  | .subnegotiation payload =>
    [telnetIac, telnetSb] ++ payload.flatMap escapeByte ++ [telnetIac, telnetSe]

/-- The data an item carries. -/
def TelnetItem.content : TelnetItem → List UInt8
  | .data byte => [byte]
  | .command _ _ | .option _ _ _ | .subnegotiation _ => []

/-- What a byte adds does not depend on what was put out before. -/
theorem telnetStep_output (state : TelnetState) (out : List UInt8) (byte : UInt8) :
    telnetStep (state, out) byte =
      ((telnetStep (state, []) byte).1, out ++ (telnetStep (state, []) byte).2) := by
  have hsame : ∀ next : TelnetState, (next, out) = (next, out ++ ([] : List UInt8)) := by
    intro next
    rw [List.append_nil]
  cases state with
  | data =>
    unfold telnetStep
    by_cases hiac : byte = telnetIac
    · simp [hiac]
    · simp [hiac]
  | iac =>
    unfold telnetStep
    dsimp only
    by_cases hiac : byte = telnetIac
    · simp [hiac]
    · rw [if_neg hiac, if_neg hiac]
      by_cases hoption : telnetOptionCommands.contains byte = true
      · rw [if_pos hoption, if_pos hoption]
        exact hsame _
      · rw [if_neg hoption, if_neg hoption]
        by_cases hsb : byte = telnetSb
        · rw [if_pos hsb, if_pos hsb]
          exact hsame _
        · rw [if_neg hsb, if_neg hsb]
          exact hsame _
  | option => exact hsame _
  | subnegotiation =>
    unfold telnetStep
    by_cases hiac : byte = telnetIac
    · simp [hiac]
    · simp [hiac]
  | subnegotiationIac =>
    unfold telnetStep
    by_cases hse : byte = telnetSe
    · simp [hse]
    · simp [hse]

theorem foldl_telnetStep (bytes : List UInt8) (state : TelnetState) (out : List UInt8) :
    bytes.foldl telnetStep (state, out) =
      ((telnetFeed state bytes).1, out ++ (telnetFeed state bytes).2) := by
  unfold telnetFeed
  induction bytes generalizing state out with
  | nil =>
    show (state, out) = (state, out ++ [])
    rw [List.append_nil]
  | cons byte rest ih =>
    rw [List.foldl_cons, List.foldl_cons, telnetStep_output state out byte]
    generalize telnetStep (state, []) byte = after
    obtain ⟨next, added⟩ := after
    dsimp only
    rw [ih next (out ++ added), ih next added, List.append_assoc]

/-- The state after the first part is all that the second part depends on. -/
theorem telnetFeed_append (state : TelnetState) (first second : List UInt8) :
    telnetFeed state (first ++ second) =
      ((telnetFeed (telnetFeed state first).1 second).1,
        (telnetFeed state first).2 ++ (telnetFeed (telnetFeed state first).1 second).2) := by
  have hfold := foldl_telnetStep second (telnetFeed state first).1 (telnetFeed state first).2
  rw [← hfold]
  show (first ++ second).foldl telnetStep (state, []) = _
  rw [List.foldl_append]
  rfl

theorem telnetFeedChunks_append (state : TelnetState) (chunks : List (List UInt8))
    (chunk : List UInt8) :
    telnetFeedChunks state (chunks ++ [chunk]) =
      ((telnetFeed (telnetFeedChunks state chunks).1 chunk).1,
        (telnetFeedChunks state chunks).2 ++
          (telnetFeed (telnetFeedChunks state chunks).1 chunk).2) := by
  unfold telnetFeedChunks
  rw [List.foldl_append]
  rfl

theorem telnetFeedChunks_eq (state : TelnetState) (chunks : List (List UInt8)) :
    telnetFeedChunks state chunks = telnetFeed state chunks.flatten := by
  induction chunks using List.reverseRecOn with
  | nil => rfl
  | append_singleton rest chunk ih =>
    have hflat : (rest ++ [chunk]).flatten = rest.flatten ++ chunk := by simp
    rw [telnetFeedChunks_append, ih, hflat, telnetFeed_append]

/-- What is inside a subnegotiation is swallowed. -/
theorem telnetFeed_payload (payload : List UInt8) :
    telnetFeed .subnegotiation (payload.flatMap escapeByte) = (.subnegotiation, []) := by
  induction payload with
  | nil => rfl
  | cons byte rest ih =>
    have hbyte : telnetFeed .subnegotiation (escapeByte byte) = (.subnegotiation, []) := by
      unfold escapeByte
      by_cases hiac : byte = telnetIac
      · rw [if_pos hiac]
        rfl
      · rw [if_neg hiac]
        show telnetStep (.subnegotiation, []) byte = _
        unfold telnetStep
        dsimp only
        rw [if_neg hiac]
    rw [List.flatMap_cons, telnetFeed_append, hbyte, ih]
    rfl

/-- An item is read to its end and puts out the data it carries. -/
theorem telnetFeed_wire (item : TelnetItem) :
    telnetFeed .data item.wire = (.data, item.content) := by
  cases item with
  | data byte =>
    show telnetFeed .data (escapeByte byte) = (.data, [byte])
    unfold escapeByte
    by_cases hiac : byte = telnetIac
    · rw [if_pos hiac, hiac]
      rfl
    · rw [if_neg hiac]
      show telnetStep (.data, []) byte = _
      unfold telnetStep
      dsimp only
      rw [if_neg hiac]
      rfl
  | command code plain =>
    obtain ⟨hiac, hoption, hsb⟩ := plain
    show telnetStep (.iac, []) code = (.data, [])
    unfold telnetStep
    dsimp only
    rw [if_neg hiac, if_neg (by simpa using hoption), if_neg hsb]
  | option code known number =>
    have hiac : code ≠ telnetIac := by
      intro heq
      subst heq
      exact absurd known (by decide)
    have hstep : telnetStep (.iac, []) code = (.option, []) := by
      unfold telnetStep
      dsimp only
      rw [if_neg hiac, if_pos (by simpa using known)]
    show telnetStep (telnetStep (.iac, []) code) number = (.data, [])
    rw [hstep]
    rfl
  | subnegotiation payload =>
    show telnetFeed .data ([telnetIac, telnetSb] ++ payload.flatMap escapeByte ++
      [telnetIac, telnetSe]) = (.data, [])
    have hopen : telnetFeed .data [telnetIac, telnetSb] = (.subnegotiation, []) := rfl
    have hclose : telnetFeed .subnegotiation [telnetIac, telnetSe] = (.data, []) := rfl
    rw [telnetFeed_append, telnetFeed_append, hopen, telnetFeed_payload, hclose]
    rfl

theorem telnetFeed_items (items : List TelnetItem) :
    telnetFeed .data (items.flatMap TelnetItem.wire) = (.data, items.flatMap TelnetItem.content) := by
  induction items with
  | nil => rfl
  | cons item rest ih =>
    rw [List.flatMap_cons, List.flatMap_cons, telnetFeed_append, telnetFeed_wire, ih]

/-- The output does not depend on the chunks, and of a well-formed stream it is the data. -/
theorem telnet_filter_transparent :
    (∀ (state : TelnetState) (chunks : List (List UInt8)),
        telnetFeedChunks state chunks = telnetFeed state chunks.flatten) ∧
      ∀ (items : List TelnetItem) (chunks : List (List UInt8)),
        chunks.flatten = items.flatMap TelnetItem.wire →
          (telnetFeedChunks .data chunks).2 = items.flatMap TelnetItem.content := by
  refine ⟨telnetFeedChunks_eq, ?_⟩
  intro items chunks hchunks
  rw [telnetFeedChunks_eq, hchunks, telnetFeed_items]

/-- An option whose number is 255 and a doubled 255, cut inside both. -/
theorem telnet_filter_cut :
    (telnetFeedChunks .data [[65, 255], [253, 255, 255], [255, 66]]).2 = [65, 255, 66] :=
  telnet_filter_transparent.2
    [.data 65, .option 253 (by decide) 255, .data 255, .data 66]
    [[65, 255], [253, 255, 255], [255, 66]] (by decide)

end NovaVe
