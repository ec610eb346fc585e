import NovaVe.QmpReplies
import NovaVe.Texts
import Mathlib.Data.List.DropRight

namespace NovaVe

/-- What is buffered of a socket, and what is still to be received. -/
structure SocketState where
  buffer : List UInt8
  chunks : List (List UInt8)

/-- The bytes that have not been consumed. -/
def SocketState.text (s : SocketState) : List UInt8 := s.buffer ++ s.chunks.flatten

inductive HypervisorFault
  | timeout
  | closed
  | malformed (raw : List Char)
  | separator (sep : Char)
deriving DecidableEq, Repr

/-- `_Reply`. -/
structure HypervisorAnswer where
  code : Nat
  lines : List (List Char)
deriving DecidableEq, Repr

def HypervisorAnswer.ok (answer : HypervisorAnswer) : Bool :=
  decide (100 ≤ answer.code ∧ answer.code < 200)

/-- `decode("utf-8", errors="replace")`; `other` is what it makes of a text from a byte on that is
not ASCII. -/
def decodeReplace (other : List UInt8 → List Char) : List UInt8 → List Char
  | [] => []
  | b :: rest =>
    if b < 128 then Char.ofNat b.toNat :: decodeReplace other rest else other (b :: rest)

/-- `line.rstrip(b"\r")`. -/
def stripReturns (line : List UInt8) : List UInt8 := line.rdropWhile (fun b => b == 13)

/-- `int(raw[:3])` of a line of four characters or more that starts with digits. -/
def replyCode (raw : List Char) : Option Nat :=
  if raw.length < 4 ∨ ¬ (raw.take 3).all Char.isDigit then none
  else some ((raw.take 3).foldl (fun n c => 10 * n + (c.toNat - 48)) 0)

theorem readLine_shrinks {chunks chunks' : List (List UInt8)} {buffer line buffer' : List UInt8}
    (h : readLine buffer chunks = .ok (line, buffer', chunks')) :
    (buffer' ++ chunks'.flatten).length < (buffer ++ chunks.flatten).length := by
  have hdrop : 10 ∈ buffer →
      (buffer.dropWhile (fun b => b != 10)).tail.length < buffer.length := by
    intro hin
    have hle := (List.dropWhile_suffix (fun b => b != 10) (l := buffer)).length_le
    have hpos : 0 < buffer.length := List.length_pos_of_mem hin
    rw [List.length_tail]
    omega
  induction chunks generalizing buffer with
  | nil =>
    unfold readLine at h
    split at h
    next hin =>
      cases h
      have hlt := hdrop hin
      simpa using hlt
    next => cases h
  | cons chunk rest ih =>
    unfold readLine at h
    split at h
    next hin =>
      cases h
      have hlt := hdrop hin
      rw [List.length_append, List.length_append]
      omega
    next =>
      split at h
      next => cases h
      next =>
        have hrest := ih h (by
          intro hin
          have hle := (List.dropWhile_suffix (fun b => b != 10) (l := buffer ++ chunk)).length_le
          have hpos : 0 < (buffer ++ chunk).length := List.length_pos_of_mem hin
          rw [List.length_tail]
          omega)
        rw [List.flatten_cons, ← List.append_assoc]
        exact hrest

/-- The code, the separator and the payload of a line. -/
def parseReplyLine (other : List UInt8 → List Char) (line : List UInt8) :
    Except HypervisorFault (Nat × Char × List Char) :=
  let raw := decodeReplace other (stripReturns line)
  match replyCode raw with
  | none => .error (.malformed raw)
  | some code => .ok (code, raw.getD 3 ' ', raw.drop 4)

/-- `_readline`, and what `request` makes of the line. -/
def readReplyLine (other : List UInt8 → List Char) (s : SocketState) :
    Except HypervisorFault ((Nat × Char × List Char) × SocketState) :=
  match readLine s.buffer s.chunks with
  | .error .timeout => .error .timeout
  | .error _ => .error .closed
  | .ok (line, buffer, chunks) =>
    (parseReplyLine other line).map (fun parsed => (parsed, ⟨buffer, chunks⟩))

theorem readReplyLine_shrinks {other : List UInt8 → List Char} {s s' : SocketState}
    {parsed : Nat × Char × List Char} (h : readReplyLine other s = .ok (parsed, s')) :
    s'.text.length < s.text.length := by
  unfold readReplyLine at h
  split at h
  next => cases h
  next => cases h
  next line buffer chunks hread =>
    cases hparse : parseReplyLine other line with
    | error fault =>
      rw [hparse] at h
      cases h
    | ok found =>
      rw [hparse] at h
      cases h
      exact readLine_shrinks hread

/-- The loop of `HypervisorClient.request`. -/
def requestLoop (other : List UInt8 → List Char) (s : SocketState) (lines : List (List Char)) :
    Except HypervisorFault (HypervisorAnswer × SocketState) :=
  match _h : readReplyLine other s with
  | .error fault => .error fault
  | .ok ((code, sep, payload), s') =>
    if sep = ' ' then .ok (⟨code, lines ++ [payload]⟩, s')
    else if sep ≠ '-' then .error (.separator sep)
    else requestLoop other s' (lines ++ [payload])
termination_by s.text.length
decreasing_by exact readReplyLine_shrinks _h

/-- `HypervisorClient.request`; an answer that is not ok is raised after it has been read. -/
def hypervisorRequest (other : List UInt8 → List Char) (s : SocketState) :
    Except HypervisorFault (HypervisorAnswer × SocketState) :=
  requestLoop other s []

/-- `is_alive`. -/
def hypervisorIsAlive (other : List UInt8 → List Char) (vmName : String) (s : SocketState) : Bool :=
  if vmName = "" then false
  else
    match hypervisorRequest other s with
    | .error _ => false
    | .ok (answer, _) =>
      answer.ok && decide (answer.lines.getLast?.map (stripChars isPySpace) = some ['2'])

/-- A line of the hypervisor protocol: three digits, a separator and a payload. -/
structure HypervisorLine where
  code : Nat
  separator : UInt8
  payload : List UInt8
  threeDigits : 100 ≤ code ∧ code < 1000
  oneLine : 10 ∉ payload

def digitByte (d : Nat) : UInt8 := UInt8.ofNat (48 + d)

def HypervisorLine.bytes (line : HypervisorLine) : List UInt8 :=
  digitByte (line.code / 100) :: digitByte (line.code / 10 % 10) :: digitByte (line.code % 10) ::
    line.separator :: line.payload

def HypervisorLine.text (line : HypervisorLine) : List UInt8 := line.bytes ++ [10]

/-- What `_UbridgeClient.request` takes as the end of a reply: `100-` or an error `2xx-`. -/
def HypervisorLine.IsFinal (line : HypervisorLine) : Prop :=
  (line.code = 100 ∨ (200 ≤ line.code ∧ line.code < 300)) ∧ line.separator = 45

/-- What it takes as information: `1xx `. -/
def HypervisorLine.IsInfo (line : HypervisorLine) : Prop :=
  100 ≤ line.code ∧ line.code < 200 ∧ line.separator = 32

/-- A well-formed reply: information lines and the final one. -/
structure HypervisorReply where
  info : List HypervisorLine
  final : HypervisorLine
  areInfo : ∀ line ∈ info, line.IsInfo
  isFinal : final.IsFinal

def HypervisorReply.text (reply : HypervisorReply) : List UInt8 :=
  reply.info.flatMap HypervisorLine.text ++ reply.final.text

/-- Replies as they arrive, cut into chunks anywhere. -/
structure HypervisorDelivery where
  replies : List HypervisorReply
  chunks : List (List UInt8)
  whole : chunks.flatten = replies.flatMap HypervisorReply.text
  nonempty : ∀ chunk ∈ chunks, chunk ≠ []

/-- Every request is answered with the status of its own reply, and consumes that reply. -/
def Framed (other : List UInt8 → List Char) : SocketState → List HypervisorReply → Prop
  | _, [] => True
  | s, reply :: rest =>
    ∃ answer s', hypervisorRequest other s = .ok (answer, s') ∧ answer.code = reply.final.code ∧
      s'.text = rest.flatMap HypervisorReply.text ∧ Framed other s' rest

theorem rdropWhile_append_cons {α : Type} {p : α → Bool} {x : α} (front back : List α)
    (h : p x = false) :
    (front ++ x :: back).rdropWhile p = front ++ x :: back.rdropWhile p := by
  induction back using List.reverseRecOn with
  | nil =>
    rw [List.rdropWhile_concat_neg p front x (by simp [h]), List.rdropWhile_nil]
  | append_singleton rest y ih =>
    have hmove : front ++ x :: (rest ++ [y]) = front ++ x :: rest ++ [y] := by simp
    rw [hmove]
    by_cases hy : p y = true
    · rw [List.rdropWhile_concat_pos p _ y hy, ih, List.rdropWhile_concat_pos p rest y hy]
    · rw [List.rdropWhile_concat_neg p _ y hy, List.rdropWhile_concat_neg p rest y hy]
      simp

theorem digitByte_spec {d : Nat} (h : d < 10) :
    digitByte d ≠ 10 ∧ digitByte d < 128 ∧ (Char.ofNat (digitByte d).toNat).isDigit = true ∧
      (Char.ofNat (digitByte d).toNat).toNat - 48 = d := by
  have hall : ∀ k < 10, digitByte k ≠ 10 ∧ digitByte k < 128 ∧
      (Char.ofNat (digitByte k).toNat).isDigit = true ∧
        (Char.ofNat (digitByte k).toNat).toNat - 48 = k := by decide
  exact hall d h

/-- The text of a line as the client decodes it. -/
def HypervisorLine.raw (other : List UInt8 → List Char) (line : HypervisorLine) : List Char :=
  decodeReplace other (stripReturns line.bytes)

/-- The payload as the client decodes it. -/
def HypervisorLine.shown (other : List UInt8 → List Char) (line : HypervisorLine) : List Char :=
  decodeReplace other (stripReturns line.payload)

/-- A line with an ASCII separator is read as its code, the separator and the payload. -/
theorem HypervisorLine.raw_spec (other : List UInt8 → List Char) (line : HypervisorLine)
    (hsep : line.separator ≠ 13) (hascii : line.separator < 128) :
    replyCode (line.raw other) = some line.code ∧
      (line.raw other).getD 3 ' ' = Char.ofNat line.separator.toNat ∧
        (line.raw other).drop 4 = line.shown other := by
  obtain ⟨_, hthousand⟩ := line.threeDigits
  obtain ⟨_, hascii₁, hdigit₁, hvalue₁⟩ := digitByte_spec (by omega : line.code / 100 < 10)
  obtain ⟨_, hascii₂, hdigit₂, hvalue₂⟩ := digitByte_spec (by omega : line.code / 10 % 10 < 10)
  obtain ⟨_, hascii₃, hdigit₃, hvalue₃⟩ := digitByte_spec (by omega : line.code % 10 < 10)
  have hstrip : stripReturns line.bytes =
      digitByte (line.code / 100) :: digitByte (line.code / 10 % 10) ::
        digitByte (line.code % 10) :: line.separator :: stripReturns line.payload :=
    rdropWhile_append_cons [digitByte (line.code / 100), digitByte (line.code / 10 % 10),
      digitByte (line.code % 10)] line.payload (by simpa using hsep)
  have hraw : line.raw other = Char.ofNat (digitByte (line.code / 100)).toNat ::
      Char.ofNat (digitByte (line.code / 10 % 10)).toNat ::
        Char.ofNat (digitByte (line.code % 10)).toNat ::
          Char.ofNat line.separator.toNat :: line.shown other := by
    unfold HypervisorLine.raw HypervisorLine.shown
    rw [hstrip, decodeReplace, if_pos hascii₁, decodeReplace, if_pos hascii₂, decodeReplace,
      if_pos hascii₃, decodeReplace, if_pos hascii]
  rw [hraw]
  refine ⟨?_, rfl, rfl⟩
  unfold replyCode
  rw [if_neg (by simp [hdigit₁, hdigit₂, hdigit₃])]
  simp only [List.take_succ_cons, List.take_zero, List.foldl_cons, List.foldl_nil, hvalue₁, hvalue₂,
    hvalue₃, Option.some.injEq]
  omega

theorem HypervisorLine.newline_not_mem {line : HypervisorLine} (hsep : line.separator ≠ 10) :
    10 ∉ line.bytes := by
  obtain ⟨_, hthousand⟩ := line.threeDigits
  obtain ⟨hne₁, _⟩ := digitByte_spec (by omega : line.code / 100 < 10)
  obtain ⟨hne₂, _⟩ := digitByte_spec (by omega : line.code / 10 % 10 < 10)
  obtain ⟨hne₃, _⟩ := digitByte_spec (by omega : line.code % 10 < 10)
  unfold HypervisorLine.bytes
  simp only [List.mem_cons, not_or]
  exact ⟨Ne.symm hne₁, Ne.symm hne₂, Ne.symm hne₃, Ne.symm hsep, line.oneLine⟩

/-- However the text is cut, the line it starts with is read and the rest is left. -/
theorem readReplyLine_line (other : List UInt8 → List Char) {s : SocketState}
    {line : HypervisorLine} {rest : List UInt8} (hnonempty : ∀ chunk ∈ s.chunks, chunk ≠ [])
    (htext : s.text = line.text ++ rest) (hsep : line.separator = 32 ∨ line.separator = 45) :
    ∃ s' : SocketState, s'.text = rest ∧ (∀ chunk ∈ s'.chunks, chunk ≠ []) ∧
      readReplyLine other s =
        .ok ((line.code, Char.ofNat line.separator.toNat, line.shown other), s') := by
  have hplain : line.separator ≠ 10 ∧ line.separator ≠ 13 ∧ line.separator < 128 := by
    rcases hsep with h | h
    · rw [h]
      decide
    · rw [h]
      decide
  obtain ⟨hcode, hchar, hpayload⟩ := line.raw_spec other hplain.2.1 hplain.2.2
  have hsplit : s.buffer ++ s.chunks.flatten = line.bytes ++ 10 :: rest := by
    show s.text = _
    rw [htext, HypervisorLine.text, List.append_assoc]
    rfl
  obtain ⟨buffer, chunks, hread, hrest, hmore⟩ :=
    readLine_line (line.newline_not_mem hplain.1) s.chunks s.buffer hnonempty hsplit
  have hparse : parseReplyLine other line.bytes =
      .ok (line.code, Char.ofNat line.separator.toNat, line.shown other) := by
    unfold parseReplyLine
    rw [← HypervisorLine.raw]
    dsimp only
    rw [hcode, hchar, hpayload]
  refine ⟨⟨buffer, chunks⟩, hrest, hmore, ?_⟩
  unfold readReplyLine
  rw [hread]
  dsimp only
  rw [hparse]
  rfl

/-- What a line does to the loop. -/
theorem requestLoop_read {other : List UInt8 → List Char} {s s' : SocketState} {code : Nat}
    {sep : Char} {payload : List Char} (lines : List (List Char))
    (h : readReplyLine other s = .ok ((code, sep, payload), s')) :
    requestLoop other s lines =
      if sep = ' ' then .ok (⟨code, lines ++ [payload]⟩, s')
      else if sep ≠ '-' then .error (.separator sep)
      else requestLoop other s' (lines ++ [payload]) := by
  rw [requestLoop]
  split
  next heq =>
    rw [h] at heq
    cases heq
  next heq =>
    rw [h] at heq
    cases heq
    rfl

/-- An answer takes at least one line of the text. -/
theorem requestLoop_shrinks {other : List UInt8 → List Char} {n : Nat} {s s' : SocketState}
    {lines : List (List Char)} {answer : HypervisorAnswer} (hn : s.text.length ≤ n)
    (h : requestLoop other s lines = .ok (answer, s')) : s'.text.length < s.text.length := by
  induction n generalizing s lines with
  | zero =>
    cases hread : readReplyLine other s with
    | error fault =>
      rw [requestLoop] at h
      split at h
      next => cases h
      next heq =>
        rw [hread] at heq
        cases heq
    | ok found =>
      have hlt := readReplyLine_shrinks hread
      omega
  | succ n ih =>
    cases hread : readReplyLine other s with
    | error fault =>
      rw [requestLoop] at h
      split at h
      next => cases h
      next heq =>
        rw [hread] at heq
        cases heq
    | ok found =>
      obtain ⟨⟨code, sep, payload⟩, next⟩ := found
      have hlt := readReplyLine_shrinks hread
      rw [requestLoop_read lines hread] at h
      split at h
      next =>
        cases h
        exact hlt
      next =>
        split at h
        next => cases h
        next =>
          have hmore := ih (by omega) h
          omega

theorem HypervisorReply.text_info {reply : HypervisorReply} {line : HypervisorLine}
    {more : List HypervisorLine} (h : reply.info = line :: more) :
    reply.text = line.text ++ (more.flatMap HypervisorLine.text ++ reply.final.text) := by
  unfold HypervisorReply.text
  rw [h, List.flatMap_cons, List.append_assoc]

theorem HypervisorLine.text_ne_nil (line : HypervisorLine) : line.text ≠ [] := by
  unfold HypervisorLine.text
  simp

/-- The first information line is taken for the whole answer; without one, the final line is taken
for a part of it. -/
theorem hypervisorRequest_reply (other : List UInt8 → List Char) {s : SocketState}
    (reply : HypervisorReply) {rest : List UInt8} (hnonempty : ∀ chunk ∈ s.chunks, chunk ≠ [])
    (htext : s.text = reply.text ++ rest) :
    (∀ line more, reply.info = line :: more → ∃ s', hypervisorRequest other s =
        .ok (⟨line.code, [line.shown other]⟩, s') ∧
          s'.text = more.flatMap HypervisorLine.text ++ reply.final.text ++ rest) ∧
      (reply.info = [] → ∃ s' : SocketState, s'.text = rest ∧
        hypervisorRequest other s = requestLoop other s' [reply.final.shown other]) := by
  refine ⟨?_, ?_⟩
  · intro line more hinfo
    obtain ⟨_, _, hsep⟩ := reply.areInfo line (by rw [hinfo]; exact List.mem_cons_self)
    rw [reply.text_info hinfo, List.append_assoc] at htext
    obtain ⟨s', hrest, _, hread⟩ := readReplyLine_line other hnonempty htext (Or.inl hsep)
    refine ⟨s', ?_, hrest⟩
    unfold hypervisorRequest
    rw [requestLoop_read [] hread, hsep]
    rfl
  · intro hinfo
    obtain ⟨_, hsep⟩ := reply.isFinal
    have hfinal : reply.text = reply.final.text := by
      unfold HypervisorReply.text
      rw [hinfo]
      rfl
    rw [hfinal] at htext
    obtain ⟨s', hrest, _, hread⟩ := readReplyLine_line other hnonempty htext (Or.inr hsep)
    refine ⟨s', hrest, ?_⟩
    unfold hypervisorRequest
    rw [requestLoop_read [] hread, hsep]
    rfl

theorem requestLoop_nil (other : List UInt8 → List Char) {s : SocketState} (h : s.text = [])
    (lines : List (List Char)) :
    ∀ answer s', requestLoop other s lines ≠ .ok (answer, s') := by
  intro answer s' hok
  have hlt := requestLoop_shrinks (Nat.le_refl _) hok
  rw [h] at hlt
  exact absurd hlt (Nat.not_lt_zero _)

/-- On any replies, however they are cut, the first request goes wrong. -/
theorem framed_nil (other : List UInt8 → List Char) (delivery : HypervisorDelivery)
    (h : Framed other ⟨[], delivery.chunks⟩ delivery.replies) : delivery.replies = [] := by
  cases hreplies : delivery.replies with
  | nil => rfl
  | cons reply rest =>
    rw [hreplies] at h
    obtain ⟨answer, s', hanswer, _, hleft, _⟩ := h
    have htext : (⟨[], delivery.chunks⟩ : SocketState).text =
        reply.text ++ rest.flatMap HypervisorReply.text := by
      show [] ++ delivery.chunks.flatten = _
      rw [List.nil_append, delivery.whole, hreplies, List.flatMap_cons]
    obtain ⟨hsome, hnone⟩ := hypervisorRequest_reply other reply delivery.nonempty htext
    have hlength := congrArg List.length hleft
    cases hinfo : reply.info with
    | nil =>
      -- the request reads on behind its own reply
      obtain ⟨next, hnext, hrequest⟩ := hnone hinfo
      rw [hrequest] at hanswer
      have hlt := requestLoop_shrinks (Nat.le_refl _) hanswer
      rw [hnext] at hlt
      omega
    | cons line more =>
      -- the request leaves the final line behind
      obtain ⟨next, hrequest, hnext⟩ := hsome line more hinfo
      rw [hrequest] at hanswer
      cases hanswer
      have hpos := List.length_pos_of_ne_nil reply.final.text_ne_nil
      rw [hnext, List.length_append, List.length_append] at hlength
      omega

theorem not_alive_of_status (other : List UInt8 → List Char) (delivery : HypervisorDelivery)
    {reply : HypervisorReply} (hreplies : delivery.replies = [reply]) (hinfo : reply.info = [])
    (vmName : String) : hypervisorIsAlive other vmName ⟨[], delivery.chunks⟩ = false := by
  have htext : (⟨[], delivery.chunks⟩ : SocketState).text = reply.text ++ [] := by
    show [] ++ delivery.chunks.flatten = _
    rw [List.nil_append, delivery.whole, hreplies, List.flatMap_cons]
    rfl
  obtain ⟨next, hnext, hrequest⟩ :=
    (hypervisorRequest_reply other reply delivery.nonempty htext).2 hinfo
  unfold hypervisorIsAlive
  split
  next => rfl
  next =>
    split
    next => rfl
    next answer s' heq =>
      rw [hrequest] at heq
      exact absurd heq (requestLoop_nil other hnext _ answer s')

/-- No sequence of documented replies is framed but the empty one, and a machine that answers with its
status alone never counts as alive. -/
theorem hypervisor_framed_iff (other : List UInt8 → List Char) :
    (∀ delivery : HypervisorDelivery,
        Framed other ⟨[], delivery.chunks⟩ delivery.replies ↔ delivery.replies = []) ∧
      ∀ (delivery : HypervisorDelivery) (reply : HypervisorReply) (vmName : String),
        delivery.replies = [reply] → reply.info = [] →
          hypervisorIsAlive other vmName ⟨[], delivery.chunks⟩ = false := by
  refine ⟨?_, ?_⟩
  · intro delivery
    constructor
    · intro h
      exact framed_nil other delivery h
    · intro h
      rw [h]
      exact trivial
  · intro delivery reply vmName hreplies hinfo
    exact not_alive_of_status other delivery hreplies hinfo vmName

/-- The reply `100-2` of a running machine. -/
def runningReply : HypervisorReply where
  info := []
  final := ⟨100, 45, [50, 13], by decide, by decide⟩
  areInfo := by simp
  isFinal := by
    constructor
    · exact Or.inl rfl
    · rfl

def runningDelivery : HypervisorDelivery where
  replies := [runningReply]
  chunks := [runningReply.text]
  whole := rfl
  nonempty := by
    intro chunk hchunk
    rw [List.mem_singleton.mp hchunk]
    decide

/-- The machine runs, says so, and does not count as alive. -/
theorem running_machine_not_alive :
    hypervisorIsAlive (fun _ => []) "nv_lab_n1" ⟨[], runningDelivery.chunks⟩ = false :=
  (hypervisor_framed_iff (fun _ => [])).2 runningDelivery runningReply "nv_lab_n1" rfl rfl

/-- Its reply is not taken for an answer. -/
theorem running_reply_not_framed :
    ¬ (∀ delivery : HypervisorDelivery,
      Framed (fun _ => []) ⟨[], delivery.chunks⟩ delivery.replies) := by
  intro h
  have hnil := framed_nil (fun _ => []) runningDelivery (h runningDelivery)
  cases hnil

end NovaVe
