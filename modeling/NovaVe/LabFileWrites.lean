import NovaVe.JsonDump

namespace NovaVe

/-- The two things a file write does to the file. -/
inductive FileOp
  | truncate
  | append (chunk : List Char)

def FileOp.apply (content : List Char) : FileOp → List Char
  | .truncate => []
  | .append chunk => content ++ chunk

/-- The file operations of `write_lab_json_static`: the file is opened for writing, and what
`json.dump` yields is appended until it ends or raises. -/
def writeLabJsonStatic (chunks : List (List Char)) : List FileOp := .truncate :: chunks.map .append

/-- A call of `write_lab_json_static`: the cleaned document, the pieces in which its text reaches
the file, the number of file operations before the write stops, and when readers look. -/
structure LabWrite where
  cleaned : List (String × Json)
  chunks : List (List Char)
  serialized : chunks.flatten = (dump 0 (.obj cleaned)).text
  stop : Nat
  looks : List Nat

def LabWrite.dumped (write : LabWrite) : Dumped := dump 0 (.obj write.cleaned)

/-- The content of the file after some operations of a write. -/
def LabWrite.contentAt (write : LabWrite) (previous : List Char) (ops : Nat) : List Char :=
  ((writeLabJsonStatic write.chunks).take ops).foldl FileOp.apply previous

/-- A reader at that point finds the previous document or the new one, and parses what it finds:
`_read_json` skips a file that does not parse. -/
def LabWrite.SeesDocument (write : LabWrite) (previous : List Char) (ops : Nat) : Prop :=
  (write.contentAt previous ops = previous ∨
    (write.dumped.done = true ∧ write.contentAt previous ops = write.dumped.text)) ∧
  loadsDict (write.contentAt previous ops) = true

/-- Every reader during and after each of these writes finds a whole document. -/
def ReadersSeeDocuments (previous : List Char) : List LabWrite → Prop
  | [] => True
  | write :: rest =>
    (∀ ops ∈ write.stop :: write.looks, write.SeesDocument previous (min ops write.stop)) ∧
      ReadersSeeDocuments (write.contentAt previous write.stop) rest

/-- The number of the last chunk that has text in it, from 1 on. -/
def lastChunk : List (List Char) → Nat
  | [] => 0
  | chunk :: rest => if chunk = [] ∧ lastChunk rest = 0 then 0 else lastChunk rest + 1

/-- Where a reader looks or the write stops, the file is not opened yet, or the document is one that
can be serialized and the last chunk with text is written. -/
def LabWrite.Settles (write : LabWrite) (ops : Nat) : Prop :=
  0 < ops → (Json.obj write.cleaned).serializable = true ∧ lastChunk write.chunks < ops

/-- No chunk behind the last one with text adds to the file, and the chunk itself does. -/
theorem lastChunk_le_iff (chunks : List (List Char)) (n : Nat) :
    lastChunk chunks ≤ n ↔ (chunks.take n).flatten = chunks.flatten := by
  induction chunks generalizing n with
  | nil => simp [lastChunk]
  | cons chunk rest ih =>
    have hstep : lastChunk (chunk :: rest) =
        if chunk = [] ∧ lastChunk rest = 0 then 0 else lastChunk rest + 1 := rfl
    rw [hstep]
    cases n with
    | zero =>
      have hrest := ih 0
      split
      next hnone =>
        have hsilent := hrest.mp (by omega)
        simp only [List.take_zero, List.flatten_nil] at hsilent
        simp [hnone.1, ← hsilent]
      next hsome =>
        have hmore : ¬ lastChunk rest + 1 ≤ 0 := by omega
        refine iff_of_false hmore ?_
        intro hflatten
        simp only [List.take_zero, List.flatten_nil, List.flatten_cons] at hflatten
        obtain ⟨hchunk, hsilent⟩ := List.append_eq_nil_iff.mp hflatten.symm
        have hzero := hrest.mpr (by simp [hsilent])
        exact hsome ⟨hchunk, by omega⟩
    | succ n =>
      rw [List.take_succ_cons, List.flatten_cons, List.flatten_cons, List.append_cancel_left_eq,
        ← ih n]
      split
      next hnone => omega
      next => omega

theorem foldl_append_chunks (content : List Char) (chunks : List (List Char)) :
    (chunks.map FileOp.append).foldl FileOp.apply content = content ++ chunks.flatten := by
  induction chunks generalizing content with
  | nil => simp
  | cons chunk rest ih =>
    rw [List.map_cons, List.foldl_cons, ih]
    simp [FileOp.apply]

theorem LabWrite.contentAt_succ (write : LabWrite) (previous : List Char) (ops : Nat) :
    write.contentAt previous (ops + 1) = (write.chunks.take ops).flatten := by
  unfold LabWrite.contentAt writeLabJsonStatic
  rw [List.take_succ_cons, List.foldl_cons, ← List.map_take, foldl_append_chunks]
  rfl

theorem LabWrite.contentAt_prefix (write : LabWrite) (previous : List Char) (ops : Nat) :
    write.contentAt previous (ops + 1) <+: write.dumped.text := by
  rw [write.contentAt_succ, LabWrite.dumped, ← write.serialized]
  have hsplit := congrArg List.flatten (List.take_append_drop ops write.chunks)
  rw [List.flatten_append] at hsplit
  exact ⟨_, hsplit⟩

/-- At one point of one write. -/
theorem LabWrite.seesDocument_iff (write : LabWrite) {previous : List Char}
    (hprevious : loadsDict previous = true) (ops : Nat) :
    write.SeesDocument previous ops ↔ write.Settles ops := by
  cases ops with
  | zero =>
    have hsees : write.SeesDocument previous 0 := ⟨Or.inl rfl, hprevious⟩
    refine iff_of_true hsees ?_
    intro hopened
    omega
  | succ ops =>
    have hcontent := write.contentAt_succ previous ops
    have hdumped : write.dumped.done = (Json.obj write.cleaned).serializable := dump_done 0 _
    have hwhole : (write.chunks.take ops).flatten = write.dumped.text ↔
        lastChunk write.chunks < ops + 1 := by
      unfold LabWrite.dumped
      rw [← write.serialized, ← lastChunk_le_iff]
      omega
    constructor
    · intro hsees _
      obtain ⟨hdone, htext⟩ :=
        loadsDict_of_prefix (write.contentAt_prefix previous ops) hsees.2
      rw [hcontent] at htext
      exact ⟨hdumped.symm.trans hdone, hwhole.mp htext⟩
    · intro hsettles
      obtain ⟨hserializable, hlast⟩ := hsettles (by omega)
      have hdone := hdumped.trans hserializable
      have htext := hwhole.mpr hlast
      refine ⟨Or.inr ⟨hdone, hcontent.trans htext⟩, ?_⟩
      rw [hcontent, htext]
      exact loadsDict_dumpObject hdone

/-- The readers of a run of writes find whole documents exactly when no reader looks and no write
stops between the opening of the file and the last chunk with text, and each document whose file was
opened can be serialized. -/
theorem readers_see_documents_iff {previous : List Char} (hprevious : loadsDict previous = true)
    (writes : List LabWrite) :
    ReadersSeeDocuments previous writes ↔
      ∀ write ∈ writes, ∀ ops ∈ write.stop :: write.looks, write.Settles (min ops write.stop) := by
  induction writes generalizing previous with
  | nil => simp [ReadersSeeDocuments]
  | cons write rest ih =>
    have hone : (∀ ops ∈ write.stop :: write.looks,
        write.SeesDocument previous (min ops write.stop)) ↔
        ∀ ops ∈ write.stop :: write.looks, write.Settles (min ops write.stop) := by
      refine forall_congr' (fun ops => forall_congr' (fun _ => ?_))
      exact write.seesDocument_iff hprevious (min ops write.stop)
    have hnext : (∀ ops ∈ write.stop :: write.looks, write.Settles (min ops write.stop)) →
        loadsDict (write.contentAt previous write.stop) = true := by
      intro hclean
      have hstop := hclean write.stop List.mem_cons_self
      rw [Nat.min_self] at hstop
      exact ((write.seesDocument_iff hprevious write.stop).mpr hstop).2
    constructor
    · rintro ⟨hfirst, hrest⟩ w hw
      have hclean := hone.mp hfirst
      rcases List.mem_cons.mp hw with rfl | hw
      · exact hclean
      · exact (ih (hnext hclean)).mp hrest w hw
    · intro hall
      have hclean := hall write List.mem_cons_self
      exact ⟨hone.mpr hclean,
        (ih (hnext hclean)).mpr (fun w hw => hall w (List.mem_cons_of_mem _ hw))⟩

def savedLab : List (String × Json) := [("id", .str "lab"), ("links", .arr [])]

/-- A write of the lab that is stopped right after the file was opened. -/
def cutWrite : LabWrite := ⟨savedLab, [(dump 0 (.obj savedLab)).text], by simp, 1, []⟩

def renamedLab : List (String × Json) := [("id", .str "lab"), ("links", .arr [.null])]

/-- A write that reaches the file in two chunks and an empty one; readers look before it and behind
its last text. -/
def wholeWrite : LabWrite :=
  ⟨renamedLab, [(dump 0 (.obj renamedLab)).text.take 9, (dump 0 (.obj renamedLab)).text.drop 9, []],
    by simp, 4, [0, 3]⟩

/-- A write that is stopped before it opens the file, on a document that cannot be serialized. -/
def refusedWrite : LabWrite :=
  ⟨[("id", .foreign)], [(dump 0 (.obj [("id", .foreign)])).text], by simp, 0, [0, 2]⟩

theorem whole_writes_are_read :
    ReadersSeeDocuments (dump 0 (.obj savedLab)).text [wholeWrite, refusedWrite] := by
  have hloads : loadsDict (dump 0 (.obj savedLab)).text = true := by decide +kernel
  refine (readers_see_documents_iff hloads [wholeWrite, refusedWrite]).mpr ?_
  have hwhole : ∀ ops ∈ [4, 0, 3], 0 < min ops 4 →
      (Json.obj renamedLab).serializable = true ∧ lastChunk wholeWrite.chunks < min ops 4 := by
    decide +kernel
  intro write hwrite
  rcases List.mem_cons.mp hwrite with rfl | hwrite
  · exact hwhole
  · cases List.mem_singleton.mp hwrite
    intro ops _ hopened
    rw [show refusedWrite.stop = 0 from rfl] at hopened
    omega

theorem stopped_write_destroys_lab :
    ¬ ∀ (previous : List Char) (writes : List LabWrite), loadsDict previous = true →
      ReadersSeeDocuments previous writes := by
  intro h
  have hloads : loadsDict (dump 0 (.obj savedLab)).text = true := by decide +kernel
  obtain ⟨hstop, _⟩ := h (dump 0 (.obj savedLab)).text [cutWrite] hloads
  obtain ⟨_, hread⟩ := hstop 1 List.mem_cons_self
  exact absurd hread (by decide +kernel)

end NovaVe
