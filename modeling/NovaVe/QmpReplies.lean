import NovaVe.JsonDump

namespace NovaVe

inductive QmpFault
  | timeout
  | closed
  | notJson
deriving DecidableEq, Repr

/-- `_read_line` on what is buffered and the chunks that are still to be received: the line, and what
is left of both. -/
def readLine (buffer : List UInt8) :
    List (List UInt8) → Except QmpFault (List UInt8 × List UInt8 × List (List UInt8))
  | [] =>
    if 10 ∈ buffer then
      .ok (buffer.takeWhile (fun b => b != 10), (buffer.dropWhile (fun b => b != 10)).tail, [])
    else .error .timeout
  | chunk :: rest =>
    if 10 ∈ buffer then
      .ok (buffer.takeWhile (fun b => b != 10), (buffer.dropWhile (fun b => b != 10)).tail,
        chunk :: rest)
    else if chunk = [] then .error .closed
    else readLine (buffer ++ chunk) rest

/-- A line read and parsed. -/
def readMessage (loads : List UInt8 → Option Json) (buffer : List UInt8)
    (chunks : List (List UInt8)) : Except QmpFault (Json × List UInt8 × List (List UInt8)) := do
  let (line, buffer, chunks) ← readLine buffer chunks
  match loads line with
  | none => .error .notJson
  | some value => .ok (value, buffer, chunks)

/-- `_qmp_send_with_args` on what comes back over the socket: the greeting, a line for the
capabilities command, and the line that is taken for the response. -/
def qmpSendWithArgs (loads : List UInt8 → Option Json) (chunks : List (List UInt8)) :
    Except QmpFault Json := do
  let (_, buffer, chunks) ← readMessage loads [] chunks
  let (_, buffer, chunks) ← readMessage loads buffer chunks
  let (response, _, _) ← readMessage loads buffer chunks
  match response with
  | .obj fields => .ok (.obj fields)
  | _ => .ok (.obj [])

def Json.hasKey (key : String) : Json → Bool
  | .obj fields => fields.any (fun field => field.1 == key)
  | _ => false

/-- Whether the caller of `_qmp_command` takes the command to have been carried out. -/
def qmpReportsSuccess (loads : List UInt8 → Option Json) (chunks : List (List UInt8)) : Bool :=
  match qmpSendWithArgs loads chunks with
  | .ok response => !response.hasKey "error"
  | .error _ => false

/-- A line of the stream and what it parses to. -/
structure QmpLine (loads : List UInt8 → Option Json) where
  bytes : List UInt8
  value : Json
  oneLine : 10 ∉ bytes
  parses : loads bytes = some value

/-- What QEMU sends in a session with one command: the greeting and the two replies in order, and
any number of events between them. -/
structure QmpStream (loads : List UInt8 → Option Json) where
  greeting : QmpLine loads
  capabilities : QmpLine loads
  reply : QmpLine loads
  early : List (QmpLine loads) := []
  afterGreeting : List (QmpLine loads) := []
  afterCapabilities : List (QmpLine loads) := []
  late : List (QmpLine loads) := []
  isGreeting : greeting.value.hasKey "QMP" = true
  isReply : (reply.value.hasKey "return" = true ∨ reply.value.hasKey "error" = true) ∧
    reply.value.hasKey "QMP" = false ∧ reply.value.hasKey "event" = false
  areEvents : ∀ line ∈ early ++ afterGreeting ++ afterCapabilities ++ late,
    line.value.hasKey "event" = true
  capabilitiesReply : capabilities.value.hasKey "return" = true ∨
    capabilities.value.hasKey "error" = true

def QmpStream.lines {loads : List UInt8 → Option Json} (stream : QmpStream loads) :
    List (QmpLine loads) :=
  stream.early ++ (stream.greeting :: stream.afterGreeting) ++
    (stream.capabilities :: stream.afterCapabilities) ++ (stream.reply :: stream.late)

def QmpLine.text {loads : List UInt8 → Option Json} (line : QmpLine loads) : List UInt8 :=
  line.bytes ++ [10]

/-- The stream as it arrives, cut into chunks anywhere. -/
structure QmpDelivery (loads : List UInt8 → Option Json) where
  stream : QmpStream loads
  chunks : List (List UInt8)
  whole : chunks.flatten = stream.lines.flatMap QmpLine.text
  nonempty : ∀ chunk ∈ chunks, chunk ≠ []

/-- The response is the reply of the command, and a reply that is an error is not taken for a
success. -/
def QmpDelivery.Matched {loads : List UInt8 → Option Json} (delivery : QmpDelivery loads) : Prop :=
  qmpSendWithArgs loads delivery.chunks = .ok delivery.stream.reply.value ∧
    (delivery.stream.reply.value.hasKey "error" = true →
      qmpReportsSuccess loads delivery.chunks = false)

/-- A buffer that holds a newline begins with the first line of the text it is a part of. -/
theorem buffered_line {buffer later line rest : List UInt8} (hline : 10 ∉ line)
    (hin : 10 ∈ buffer) (htext : buffer ++ later = line ++ 10 :: rest) :
    ∃ left, buffer = line ++ 10 :: left ∧ left ++ later = rest := by
  rcases List.append_eq_append_iff.mp htext with ⟨more, hmore, _⟩ | ⟨more, hbuffer, hrest⟩
  · rw [hmore] at hline
    exact absurd (List.mem_append_left more hin) hline
  · cases more with
    | nil =>
      rw [hbuffer, List.append_nil] at hin
      exact absurd hin hline
    | cons b left =>
      obtain ⟨rfl, hleft⟩ := List.cons.inj hrest
      exact ⟨left, hbuffer, hleft.symm⟩

theorem takeWhile_line {line left : List UInt8} (hline : 10 ∉ line) :
    (line ++ 10 :: left).takeWhile (fun b => b != 10) = line ∧
      ((line ++ 10 :: left).dropWhile (fun b => b != 10)).tail = left := by
  have hinside : ∀ b ∈ line, (b != 10) = true := by
    intro b hb
    have hne : b ≠ 10 := by
      rintro rfl
      exact hline hb
    simpa using hne
  rw [List.takeWhile_append_of_pos hinside, List.dropWhile_append_of_pos hinside]
  simp

/-- However the text is cut, a read takes the first line of it and leaves the rest. -/
theorem readLine_line {line rest : List UInt8} (hline : 10 ∉ line) (chunks : List (List UInt8))
    (buffer : List UInt8) (hnonempty : ∀ chunk ∈ chunks, chunk ≠ [])
    (htext : buffer ++ chunks.flatten = line ++ 10 :: rest) :
    ∃ buffer' chunks', readLine buffer chunks = .ok (line, buffer', chunks') ∧
      buffer' ++ chunks'.flatten = rest ∧ ∀ chunk ∈ chunks', chunk ≠ [] := by
  induction chunks generalizing buffer with
  | nil =>
    have hin : 10 ∈ buffer := by
      rw [List.flatten_nil, List.append_nil] at htext
      rw [htext]
      exact List.mem_append_right line List.mem_cons_self
    obtain ⟨left, rfl, hleft⟩ := buffered_line hline hin htext
    obtain ⟨htake, hdrop⟩ := @takeWhile_line _ left hline
    refine ⟨left, [], ?_, hleft, hnonempty⟩
    rw [readLine, if_pos hin, htake, hdrop]
  | cons chunk more ih =>
    by_cases hin : 10 ∈ buffer
    · obtain ⟨left, rfl, hleft⟩ := buffered_line hline hin htext
      obtain ⟨htake, hdrop⟩ := @takeWhile_line _ left hline
      refine ⟨left, chunk :: more, ?_, hleft, hnonempty⟩
      rw [readLine, if_pos hin, htake, hdrop]
    · have hchunk : chunk ≠ [] := hnonempty chunk List.mem_cons_self
      rw [List.flatten_cons, ← List.append_assoc] at htext
      obtain ⟨buffer', chunks', hread, hrest, hmore⟩ := ih (buffer ++ chunk)
        (fun c hc => hnonempty c (List.mem_cons_of_mem chunk hc)) htext
      refine ⟨buffer', chunks', ?_, hrest, hmore⟩
      rw [readLine, if_neg hin, if_neg hchunk, hread]

theorem readMessage_line {loads : List UInt8 → Option Json} (line : QmpLine loads)
    {lines : List (QmpLine loads)} {chunks : List (List UInt8)} {buffer : List UInt8}
    (hnonempty : ∀ chunk ∈ chunks, chunk ≠ [])
    (htext : buffer ++ chunks.flatten = (line :: lines).flatMap QmpLine.text) :
    ∃ buffer' chunks', readMessage loads buffer chunks = .ok (line.value, buffer', chunks') ∧
      buffer' ++ chunks'.flatten = lines.flatMap QmpLine.text ∧
      ∀ chunk ∈ chunks', chunk ≠ [] := by
  rw [List.flatMap_cons, QmpLine.text, List.append_assoc, List.singleton_append] at htext
  obtain ⟨buffer', chunks', hread, hrest, hmore⟩ :=
    readLine_line line.oneLine chunks buffer hnonempty htext
  refine ⟨buffer', chunks', ?_, hrest, hmore⟩
  unfold readMessage
  rw [hread]
  change (match loads line.bytes with
    | none => Except.error QmpFault.notJson
    | some value => .ok (value, buffer', chunks')) = _
  rw [line.parses]

def Json.orEmpty : Json → Json
  | .obj fields => .obj fields
  | _ => .obj []

theorem Json.orEmpty_of_hasKey {key : String} {value : Json} (h : value.hasKey key = true) :
    value.orEmpty = value := by
  cases value with
  | obj fields => rfl
  | null | bool | num | str | arr | foreign => cases h

/-- Whatever is sent, the third line is taken for the response. -/
theorem qmpSendWithArgs_third {loads : List UInt8 → Option Json} {first second third : QmpLine loads}
    {lines : List (QmpLine loads)} {chunks : List (List UInt8)}
    (hnonempty : ∀ chunk ∈ chunks, chunk ≠ [])
    (htext : chunks.flatten = (first :: second :: third :: lines).flatMap QmpLine.text) :
    qmpSendWithArgs loads chunks = .ok third.value.orEmpty := by
  obtain ⟨b₁, c₁, hread₁, hrest₁, hmore₁⟩ :=
    @readMessage_line loads first (second :: third :: lines) chunks [] hnonempty htext
  obtain ⟨b₂, c₂, hread₂, hrest₂, hmore₂⟩ := readMessage_line second hmore₁ hrest₁
  obtain ⟨b₃, c₃, hread₃, _, _⟩ := readMessage_line third hmore₂ hrest₂
  unfold qmpSendWithArgs
  rw [hread₁]
  change (readMessage loads b₁ c₁ >>= _) = _
  rw [hread₂]
  change (readMessage loads b₂ c₂ >>= _) = _
  rw [hread₃]
  change (match third.value with
    | .obj fields => Except.ok (Json.obj fields)
    | _ => .ok (.obj [])) = _
  cases third.value <;> rfl

/-- When the reply is matched: no event comes before it, or exactly one comes before the reply to
`qmp_capabilities`, and that reply is the same as the one of the command. -/
def QmpStream.InOrder {loads : List UInt8 → Option Json} (stream : QmpStream loads) : Prop :=
  (stream.early = [] ∧ stream.afterGreeting = [] ∧ stream.afterCapabilities = []) ∨
    (stream.early.length + stream.afterGreeting.length = 1 ∧
      stream.capabilities.value = stream.reply.value)

theorem QmpDelivery.matched_iff_third {loads : List UInt8 → Option Json}
    (delivery : QmpDelivery loads) {first second third : QmpLine loads}
    {lines : List (QmpLine loads)} {key : String}
    (hlines : delivery.stream.lines = first :: second :: third :: lines)
    (hkey : third.value.hasKey key = true) :
    delivery.Matched ↔ third.value = delivery.stream.reply.value := by
  have hsend : qmpSendWithArgs loads delivery.chunks = .ok third.value := by
    rw [← Json.orEmpty_of_hasKey hkey]
    exact qmpSendWithArgs_third delivery.nonempty (hlines ▸ delivery.whole)
  constructor
  · rintro ⟨hreply, _⟩
    rw [hsend] at hreply
    exact Except.ok.inj hreply
  · intro heq
    refine ⟨hsend.trans (congrArg Except.ok heq), fun herror => ?_⟩
    unfold qmpReportsSuccess
    rw [hsend]
    change (!third.value.hasKey "error") = false
    rw [heq, herror]
    rfl

theorem QmpStream.event_ne_reply {loads : List UInt8 → Option Json} (stream : QmpStream loads)
    {line : QmpLine loads} (h : line.value.hasKey "event" = true) :
    line.value ≠ stream.reply.value := by
  intro heq
  rw [heq, stream.isReply.2.2] at h
  cases h

/-- The response is the reply of the command exactly when the stream is in order. -/
theorem qmp_reply_matched_iff {loads : List UInt8 → Option Json} (delivery : QmpDelivery loads) :
    delivery.Matched ↔ delivery.stream.InOrder := by
  obtain ⟨stream, chunks, whole, nonempty⟩ := delivery
  let delivery : QmpDelivery loads := ⟨stream, chunks, whole, nonempty⟩
  have hwrong : ∀ {first second third : QmpLine loads} {lines : List (QmpLine loads)} {key : String},
      stream.lines = first :: second :: third :: lines → third.value.hasKey key = true →
      third.value ≠ stream.reply.value → ¬ stream.InOrder →
      (delivery.Matched ↔ stream.InOrder) := by
    intro first second third lines key hlines hkey hne hout
    refine iff_of_false (fun hm => ?_) hout
    exact hne ((delivery.matched_iff_third hlines hkey).mp hm)
  have hevent : ∀ {line : QmpLine loads},
      line ∈ stream.early ++ stream.afterGreeting ++ stream.afterCapabilities ++ stream.late →
      line.value.hasKey "event" = true := fun {line} h => stream.areEvents line h
  have hcapabilities : ∀ {first second : QmpLine loads} {lines : List (QmpLine loads)},
      stream.lines = first :: second :: stream.capabilities :: lines →
      (delivery.Matched ↔ stream.capabilities.value = stream.reply.value) := by
    intro first second lines hlines
    rcases stream.capabilitiesReply with hkey | hkey
    · exact delivery.matched_iff_third hlines hkey
    · exact delivery.matched_iff_third hlines hkey
  change delivery.Matched ↔ stream.InOrder
  cases he : stream.early with
  | nil =>
    cases hg : stream.afterGreeting with
    | nil =>
      cases hc : stream.afterCapabilities with
      | nil =>
        -- the third line is the reply
        refine iff_of_true ?_ (Or.inl ⟨he, hg, hc⟩)
        have hlines : stream.lines = stream.greeting :: stream.capabilities :: stream.reply ::
            stream.late := by simp [QmpStream.lines, he, hg, hc]
        rcases stream.isReply.1 with hkey | hkey
        · exact (delivery.matched_iff_third hlines hkey).mpr rfl
        · exact (delivery.matched_iff_third hlines hkey).mpr rfl
      | cons event rest =>
        have hlines : stream.lines = stream.greeting :: stream.capabilities :: event ::
            (rest ++ stream.reply :: stream.late) := by simp [QmpStream.lines, he, hg, hc]
        have hkey := @hevent event (by simp [hc])
        refine hwrong hlines hkey (stream.event_ne_reply hkey) ?_
        simp [QmpStream.InOrder, he, hg, hc]
    | cons event rest =>
      cases rest with
      | nil =>
        have hlines : stream.lines = stream.greeting :: event :: stream.capabilities ::
            (stream.afterCapabilities ++ stream.reply :: stream.late) := by
          simp [QmpStream.lines, he, hg]
        rw [hcapabilities hlines]
        simp [QmpStream.InOrder, he, hg]
      | cons event' rest =>
        have hlines : stream.lines = stream.greeting :: event :: event' ::
            (rest ++ (stream.capabilities :: stream.afterCapabilities) ++
              (stream.reply :: stream.late)) := by simp [QmpStream.lines, he, hg]
        have hkey := @hevent event' (by simp [hg])
        refine hwrong hlines hkey (stream.event_ne_reply hkey) ?_
        simp [QmpStream.InOrder, he, hg]
  | cons event rest =>
    cases rest with
    | nil =>
      cases hg : stream.afterGreeting with
      | nil =>
        have hlines : stream.lines = event :: stream.greeting :: stream.capabilities ::
            (stream.afterCapabilities ++ stream.reply :: stream.late) := by
          simp [QmpStream.lines, he, hg]
        rw [hcapabilities hlines]
        simp [QmpStream.InOrder, he, hg]
      | cons event' rest =>
        have hlines : stream.lines = event :: stream.greeting :: event' ::
            (rest ++ (stream.capabilities :: stream.afterCapabilities) ++
              (stream.reply :: stream.late)) := by simp [QmpStream.lines, he, hg]
        have hkey := @hevent event' (by simp [hg])
        refine hwrong hlines hkey (stream.event_ne_reply hkey) ?_
        simp [QmpStream.InOrder, he, hg]
    | cons event' rest =>
      have hout : ¬ stream.InOrder := by
        simp [QmpStream.InOrder, he]
        omega
      cases rest with
      | nil =>
        have hlines : stream.lines = event :: event' :: stream.greeting ::
            (stream.afterGreeting ++ (stream.capabilities :: stream.afterCapabilities) ++
              (stream.reply :: stream.late)) := by simp [QmpStream.lines, he]
        refine hwrong hlines stream.isGreeting (fun heq => ?_) hout
        have hkey := stream.isGreeting
        rw [heq, stream.isReply.2.1] at hkey
        cases hkey
      | cons event'' rest =>
        have hlines : stream.lines = event :: event' :: event'' ::
            (rest ++ (stream.greeting :: stream.afterGreeting) ++
              (stream.capabilities :: stream.afterCapabilities) ++ (stream.reply :: stream.late)) := by
          simp [QmpStream.lines, he]
        have hkey := @hevent event'' (by simp [he])
        exact hwrong hlines hkey (stream.event_ne_reply hkey) hout

def asciiBytes (text : String) : List UInt8 := text.toList.map (fun c => UInt8.ofNat c.toNat)

/-- The lines of a session and what they parse to. -/
def sessionTexts : List (List UInt8 × Json) :=
  [(asciiBytes "\x7b\"QMP\": \x7b\x7d\x7d", .obj [("QMP", .obj [])]),
    (asciiBytes "\x7b\"return\": \x7b\x7d\x7d", .obj [("return", .obj [])]),
    (asciiBytes "\x7b\"event\": \"RESUME\"\x7d", .obj [("event", .str "RESUME")]),
    (asciiBytes "\x7b\"error\": \x7b\x7d\x7d", .obj [("error", .obj [])])]

def sessionLoads (bytes : List UInt8) : Option Json :=
  (sessionTexts.find? (fun entry => entry.1 == bytes)).map Prod.snd

/-- An event right before the reply, which is an error. -/
def eventFirst : QmpStream sessionLoads where
  greeting := ⟨asciiBytes "\x7b\"QMP\": \x7b\x7d\x7d", .obj [("QMP", .obj [])], by decide, rfl⟩
  capabilities := ⟨asciiBytes "\x7b\"return\": \x7b\x7d\x7d", .obj [("return", .obj [])], by decide, rfl⟩
  reply := ⟨asciiBytes "\x7b\"error\": \x7b\x7d\x7d", .obj [("error", .obj [])], by decide, rfl⟩
  afterCapabilities :=
    [⟨asciiBytes "\x7b\"event\": \"RESUME\"\x7d", .obj [("event", .str "RESUME")], by decide, rfl⟩]
  isGreeting := by decide
  isReply := ⟨Or.inr (by decide), by decide, by decide⟩
  areEvents := by
    intro line h
    obtain rfl := List.mem_singleton.mp h
    decide
  capabilitiesReply := Or.inl (by decide)

/-- An event that comes before the reply is taken for it, and the failed command passes for done. -/
theorem event_taken_for_reply :
    ¬ ∀ (loads : List UInt8 → Option Json) (delivery : QmpDelivery loads), delivery.Matched := by
  intro h
  have hmatched := h sessionLoads
    { stream := eventFirst, chunks := [eventFirst.lines.flatMap QmpLine.text]
      whole := List.flatten_singleton, nonempty := by decide }
  have hfailed := hmatched.2 (by decide)
  exact absurd hfailed (by decide)

end NovaVe
