import DeepSeer.MagikaBounds
import Mathlib.Tactic.Ring

/-!
Weight files as bytes. A file is read back as the tensors and labels it was
written from. Of a file that ends too early, most reads notice it; the reads of
the counts do not, and what they leave in a count decides what follows.
-/
namespace Magika

open ByteMemory ByteText

/-- A tensor as it stands in a file. -/
structure TensorRecord where
  name : Bytes
  shape : List Nat
  data : List Word
  deriving DecidableEq

def wordBytes (w : Word) : Bytes := encode32 w.toNat

/-- A text behind its length. -/
def lengthPrefixed (s : Bytes) : Bytes := encode32 s.length ++ s

namespace TensorRecord

def bytes (t : TensorRecord) : Bytes :=
  lengthPrefixed t.name ++ (encode32 t.shape.length ++
    (t.shape.flatMap encode32 ++ t.data.flatMap wordBytes))

/-- The numbers of the record fit, and there are as many elements as its shape says. -/
structure Formed (t : TensorRecord) : Prop where
  name : t.name.length < 2 ^ 32
  dims : t.shape.length < 2 ^ 32
  shape : ∀ d ∈ t.shape, d < 2 ^ 32
  data : t.data.length = t.shape.prod

/-- The tensor as it is read. -/
def loaded (t : TensorRecord) : Bytes × TensorData := (t.name, { shape := t.shape, data := t.data.toArray })

end TensorRecord

/-- A file up to the count of its labels. -/
def fileHead (tensors : List TensorRecord) : Bytes :=
  text "DSMG" ++ (encode32 1 ++ (encode32 tensors.length ++ tensors.flatMap TensorRecord.bytes))

def fileTail (labels : List Bytes) : Bytes :=
  encode32 labels.length ++ labels.flatMap lengthPrefixed

def fileBytes (tensors : List TensorRecord) (labels : List Bytes) : Bytes :=
  fileHead tensors ++ fileTail labels

/-- A strict prefix. -/
def Cut (part whole : Bytes) : Prop := part <+: whole ∧ part ≠ whole

theorem Cut.length_lt {part whole : Bytes} (h : Cut part whole) : part.length < whole.length := by
  obtain ⟨rest, hrest⟩ := h.1
  cases rest with
  | nil => exact absurd (by simpa using hrest) h.2
  | cons b rest =>
    rw [← hrest]
    simp

/-- A file that ends too early ends in its first part, or behind it in the rest. -/
theorem Cut.append {part first rest : Bytes} (h : Cut part (first ++ rest)) :
    Cut part first ∨ ∃ more, part = first ++ more ∧ Cut more rest := by
  rcases List.prefix_or_prefix_of_prefix h.1 (List.prefix_append first rest) with hp | ⟨more, rfl⟩
  · by_cases heq : part = first
    · refine .inr ⟨[], by simp [heq], List.nil_prefix, ?_⟩
      rintro rfl
      exact h.2 (by simp [heq])
    · exact .inl ⟨hp, heq⟩
  · exact .inr ⟨more, rfl, (List.prefix_append_right_inj first).mp h.1,
      fun heq => h.2 (by rw [heq])⟩

@[simp] theorem encode32_length (n : Nat) : (encode32 n).length = 4 := rfl

namespace InputFile

/-- A stream that has failed. -/
def failed : InputFile := { rest := [], good := false }

theorem number_append (a b : Bytes) : number (a ++ b) = number a + 256 ^ a.length * number b := by
  induction a with
  | nil => simp [number]
  | cons x a ih =>
    rw [List.cons_append, number, ih, number, List.length_cons, pow_succ]
    ring

/-- What is read of a number is no larger than the number. -/
theorem number_le_whole {part whole : Bytes} (h : part <+: whole) : number part ≤ number whole := by
  obtain ⟨rest, rfl⟩ := h
  rw [number_append]
  omega

theorem number_encode32 {n : Nat} (h : n < 2 ^ 32) : number (encode32 n) = n := by
  simp only [encode32, number, UInt8.toNat_ofNat']
  omega

theorem number_eq_zero {bs : Bytes} : number bs = 0 ↔ ∀ b ∈ bs, b = 0 := by
  induction bs with
  | nil => simp [number]
  | cons b bs ih =>
    have hb : b.toNat = 0 ↔ b = 0 := by
      constructor
      · intro h
        exact UInt8.toNat_inj.mp h
      · rintro rfl
        rfl
    rw [number, List.forall_mem_cons, ← ih, ← hb]
    omega

theorem read_all (bs rest : Bytes) :
    ({ rest := bs ++ rest } : InputFile).read bs.length = (bs, { rest := rest }) := by
  simp [read]

theorem read_short {bs : Bytes} {n : Nat} (h : bs.length < n) :
    ({ rest := bs } : InputFile).read n = (bs, failed) := by
  simp [read, failed, show ¬ n ≤ bs.length by omega]

@[simp] theorem read_failed (n : Nat) : failed.read n = ([], failed) := rfl

theorem readVal_encode32 {n : Nat} (h : n < 2 ^ 32) (rest : Bytes) :
    ({ rest := encode32 n ++ rest } : InputFile).readVal = (n, { rest := rest }) := by
  have hread := read_all (encode32 n) rest
  rw [encode32_length] at hread
  simp [readVal, hread, number_encode32 h]

theorem readVal_cut {part : Bytes} {n : Nat} (h : Cut part (encode32 n)) :
    ({ rest := part } : InputFile).readVal = (number part, failed) := by
  simp [readVal, read_short (show part.length < 4 from h.length_lt)]

@[simp] theorem readVal_failed : failed.readVal = (0, failed) := rfl

theorem readString_lengthPrefixed {s : Bytes} (h : s.length < 2 ^ 32) (rest : Bytes) :
    ({ rest := lengthPrefixed s ++ rest } : InputFile).readString = some (s, { rest := rest }) := by
  rw [lengthPrefixed, List.append_assoc, readString, readVal_encode32 h]
  simp [read_all]

theorem readString_cut {s part : Bytes} (h : s.length < 2 ^ 32) (hc : Cut part (lengthPrefixed s)) :
    ({ rest := part } : InputFile).readString = none := by
  rcases hc.append with hlen | ⟨more, rfl, hmore⟩
  · simp [readString, readVal_cut hlen, failed]
  · rw [readString, readVal_encode32 h]
    simp [read_short hmore.length_lt, failed]

@[simp] theorem readString_failed : failed.readString = none := rfl

theorem words_wordBytes (data : List Word) : words (data.flatMap wordBytes) = data := by
  induction data with
  | nil => rfl
  | cons w data ih =>
    have hw : number (encode32 w.toNat) = w.toNat := number_encode32 w.toNat_lt
    rw [List.flatMap_cons, wordBytes]
    simp only [encode32] at hw ⊢
    simp only [List.cons_append, List.nil_append, words, hw, ih]
    simp

theorem wordBytes_length (data : List Word) : (data.flatMap wordBytes).length = 4 * data.length := by
  induction data with
  | nil => rfl
  | cons w data ih =>
    rw [List.flatMap_cons, List.length_append, ih, List.length_cons, wordBytes, encode32_length]
    omega

theorem readFloats_words (data : List Word) (rest : Bytes) :
    ({ rest := data.flatMap wordBytes ++ rest } : InputFile).readFloats data.length =
      some (data.toArray, { rest := rest }) := by
  have hread := read_all (data.flatMap wordBytes) rest
  rw [wordBytes_length] at hread
  simp [readFloats, hread, words_wordBytes]

theorem readFloats_cut {data : List Word} {part : Bytes} (h : Cut part (data.flatMap wordBytes)) :
    ({ rest := part } : InputFile).readFloats data.length = none := by
  have hlt := h.length_lt
  rw [wordBytes_length] at hlt
  simp [readFloats, read_short hlt, failed]

@[simp] theorem readFloats_failed (count : Nat) : failed.readFloats count = none := rfl

theorem readShape_dims {shape : List Nat} (h : ∀ d ∈ shape, d < 2 ^ 32) (rest : Bytes) :
    ({ rest := shape.flatMap encode32 ++ rest } : InputFile).readShape shape.length =
      (shape, { rest := rest }) := by
  induction shape with
  | nil => rfl
  | cons d shape ih =>
    obtain ⟨hd, hshape⟩ := List.forall_mem_cons.mp h
    rw [List.flatMap_cons, List.append_assoc, List.length_cons, readShape, readVal_encode32 hd]
    simp [ih hshape]

theorem readShape_failed (n : Nat) : failed.readShape n = (List.replicate n 0, failed) := by
  induction n with
  | zero => rfl
  | succ n ih => simp [readShape, ih, List.replicate_succ]

/-- The dimensions that are left of a shape make no more elements than all of it. -/
theorem readShape_cut {shape : List Nat} (h : ∀ d ∈ shape, d < 2 ^ 32) {part : Bytes}
    (hc : Cut part (shape.flatMap encode32)) :
    ∃ dims, ({ rest := part } : InputFile).readShape shape.length = (dims, failed) ∧
      dims.prod ≤ shape.prod := by
  induction shape generalizing part with
  | nil => exact absurd hc.length_lt (by simp)
  | cons d shape ih =>
    obtain ⟨hd, hshape⟩ := List.forall_mem_cons.mp h
    rw [List.length_cons, List.prod_cons]
    rcases hc.append with hdim | ⟨more, rfl, hmore⟩
    · have hle : number part ≤ d := (number_le_whole hdim.1).trans_eq (number_encode32 hd)
      refine ⟨number part :: List.replicate shape.length 0, ?_, ?_⟩
      · simp [readShape, readVal_cut hdim, readShape_failed]
      · cases shape with
        | nil => simpa using hle
        | cons e shape => simp [List.replicate_succ]
    · obtain ⟨dims, hdims, hprod⟩ := ih hshape hmore
      refine ⟨d :: dims, ?_, ?_⟩
      · simp [readShape, readVal_encode32 hd, hdims]
      · rw [List.prod_cons]
        exact Nat.mul_le_mul_left d hprod

end InputFile

theorem elementCount_eq (shape : List Nat) : elementCount shape = shape.prod % 2 ^ 64 := by
  have hfold : ∀ (shape : List Nat) (n : Nat),
      shape.foldl (fun count d => count * d % 2 ^ 64) (n % 2 ^ 64) = n * shape.prod % 2 ^ 64 := by
    intro shape
    induction shape with
    | nil => simp
    | cons d shape ih =>
      intro n
      rw [List.foldl_cons, List.prod_cons, Nat.mod_mul_mod, ih, Nat.mul_assoc]
  have hone := hfold shape 1
  rw [Nat.one_mul, Nat.mod_eq_of_lt (show 1 < 2 ^ 64 by decide)] at hone
  exact hone

theorem elementCount_le {shape : List Nat} (h : shape.prod ≤ maxSize) :
    elementCount shape ≤ maxSize := by
  rw [elementCount_eq]
  exact (Nat.mod_le _ _).trans h

/-- A load is refused with a message. -/
def Refused {α : Type} (r : Except LoadError α) : Prop := ∃ text, r = .error (.message text)

open InputFile TensorRecord

theorem readTensor_bytes {t : TensorRecord} (h : t.Formed) (hsize : t.data.length ≤ maxSize)
    (rest : Bytes) :
    readTensor { rest := t.bytes ++ rest } = .ok (t.loaded, { rest := rest }) := by
  have hcount : elementCount t.shape = t.data.length := by
    rw [elementCount_eq, ← h.data]
    exact Nat.mod_eq_of_lt (by unfold maxSize at hsize; omega)
  have hbytes : t.bytes ++ rest = lengthPrefixed t.name ++ (encode32 t.shape.length ++
      (t.shape.flatMap encode32 ++ (t.data.flatMap wordBytes ++ rest))) := by
    simp [bytes]
  rw [hbytes, readTensor, readString_lengthPrefixed h.name]
  simp only [readVal_encode32 h.dims, readShape_dims h.shape, hcount, readFloats_words]
  rw [if_neg (by omega)]
  rfl

/-- Data that is missing behind dimensions that could not be read. -/
theorem readTensor_shapeless {f : InputFile} {name : Bytes} {g : InputFile} {n : Nat}
    {dims : List Nat} (hname : f.readString = some (name, g)) {k : InputFile}
    (hn : g.readVal = (n, k)) (hdims : k.readShape n = (dims, failed))
    (hsize : dims.prod ≤ maxSize) : Refused (readTensor f) := by
  have hle := elementCount_le hsize
  refine ⟨text "Failed reading tensor data for: " ++ name, ?_⟩
  simp only [readTensor, hname, hn, hdims, readFloats_failed]
  rw [if_neg (by omega)]

theorem readTensor_cut {t : TensorRecord} (h : t.Formed) (hsize : t.data.length ≤ maxSize)
    {part : Bytes} (hc : Cut part t.bytes) : Refused (readTensor { rest := part }) := by
  rcases hc.append with hname | ⟨afterName, rfl, hafter⟩
  · exact ⟨_, by rw [readTensor, readString_cut h.name hname]⟩
  have hname := readString_lengthPrefixed h.name afterName
  rcases hafter.append with hdims | ⟨dimBytes, rfl, hdim⟩
  · refine readTensor_shapeless hname (readVal_cut hdims) (readShape_failed _) ?_
    cases number afterName with
    | zero => simp [maxSize]
    | succ n => simp [List.replicate_succ]
  rcases hdim.append with hshape | ⟨more, rfl, hmore⟩
  · obtain ⟨dims, hread, hprod⟩ := readShape_cut h.shape hshape
    exact readTensor_shapeless hname (readVal_encode32 h.dims _) hread
      (hprod.trans (h.data ▸ hsize))
  · have hcount : elementCount t.shape = t.data.length := by
      rw [elementCount_eq, ← h.data]
      exact Nat.mod_eq_of_lt (by unfold maxSize at hsize; omega)
    refine ⟨text "Failed reading tensor data for: " ++ t.name, ?_⟩
    rw [readTensor, hname]
    simp only [readVal_encode32 h.dims, readShape_dims h.shape, hcount, readFloats_cut hmore]
    rw [if_neg (by omega)]

/-- The tensors of a file that can be read. -/
def Readable (tensors : List TensorRecord) : Prop :=
  ∀ t ∈ tensors, t.Formed ∧ t.data.length ≤ maxSize

theorem readTensors_bytes {tensors : List TensorRecord} (h : Readable tensors) (rest : Bytes)
    (before : List (Bytes × TensorData)) :
    readTensors { rest := tensors.flatMap TensorRecord.bytes ++ rest } before tensors.length =
      .ok ((tensors.map loaded).reverse ++ before, { rest := rest }) := by
  induction tensors generalizing before with
  | nil => rfl
  | cons t tensors ih =>
    obtain ⟨⟨hformed, hsize⟩, htensors⟩ := List.forall_mem_cons.mp h
    have hread := readTensor_bytes hformed hsize (tensors.flatMap TensorRecord.bytes ++ rest)
    rw [List.flatMap_cons, List.append_assoc, List.length_cons, readTensors, hread]
    have hrest := ih htensors (t.loaded :: before)
    simpa [bind, Except.bind] using hrest

/-- Tensors that a failed stream is asked for. -/
theorem readTensors_failed (before : List (Bytes × TensorData)) {n : Nat} (h : n ≠ 0) :
    Refused (readTensors failed before n) := by
  obtain ⟨k, rfl⟩ := Nat.exists_eq_succ_of_ne_zero h
  exact ⟨_, rfl⟩

theorem readTensors_cut {tensors : List TensorRecord} (h : Readable tensors) {part : Bytes}
    (hc : Cut part (tensors.flatMap TensorRecord.bytes)) (before : List (Bytes × TensorData)) :
    Refused (readTensors { rest := part } before tensors.length) := by
  induction tensors generalizing before part with
  | nil => exact absurd hc.length_lt (by simp)
  | cons t tensors ih =>
    obtain ⟨⟨hformed, hsize⟩, htensors⟩ := List.forall_mem_cons.mp h
    rw [List.length_cons, readTensors]
    rcases hc.append with hfirst | ⟨more, rfl, hmore⟩
    · obtain ⟨message, hread⟩ := readTensor_cut hformed hsize hfirst
      rw [hread]
      exact ⟨message, rfl⟩
    · rw [readTensor_bytes hformed hsize]
      exact ih htensors hmore _

theorem readLabels_bytes {labels : List Bytes} (h : ∀ l ∈ labels, l.length < 2 ^ 32) :
    readLabels { rest := labels.flatMap lengthPrefixed } labels.length =
      .ok (labels, { rest := [] }) := by
  induction labels with
  | nil => rfl
  | cons l labels ih =>
    obtain ⟨hl, hlabels⟩ := List.forall_mem_cons.mp h
    rw [List.flatMap_cons, List.length_cons, readLabels, readString_lengthPrefixed hl]
    simp [bind, Except.bind, ih hlabels]

theorem readLabels_failed {n : Nat} (h : n ≠ 0) : Refused (readLabels failed n) := by
  obtain ⟨k, rfl⟩ := Nat.exists_eq_succ_of_ne_zero h
  exact ⟨_, rfl⟩

theorem readLabels_cut {labels : List Bytes} (h : ∀ l ∈ labels, l.length < 2 ^ 32) {part : Bytes}
    (hc : Cut part (labels.flatMap lengthPrefixed)) :
    Refused (readLabels { rest := part } labels.length) := by
  induction labels generalizing part with
  | nil => exact absurd hc.length_lt (by simp)
  | cons l labels ih =>
    obtain ⟨hl, hlabels⟩ := List.forall_mem_cons.mp h
    rw [List.length_cons, readLabels]
    rcases hc.append with hfirst | ⟨more, rfl, hmore⟩
    · rw [readString_cut hl hfirst]
      exact ⟨_, rfl⟩
    · obtain ⟨message, hrest⟩ := ih hlabels hmore
      rw [readString_lengthPrefixed hl]
      exact ⟨message, by simp [bind, Except.bind, hrest]⟩

/-- The names of the tensors that a model needs. -/
def requiredTensors : List String :=
  ["embed_weight", "embed_bias", "ln0_scale", "ln0_bias", "conv_weight", "conv_bias", "ln1_scale",
    "ln1_bias", "output_weight", "output_bias"]

/-- The data of a model by the names that it has in a file. -/
def MagikaModel.weights (m : MagikaModel) : List (String × Array Word) :=
  [("embed_weight", m.embedWeight_), ("embed_bias", m.embedBias_), ("ln0_scale", m.ln0Scale_),
    ("ln0_bias", m.ln0Bias_), ("conv_weight", m.convWeight_), ("conv_bias", m.convBias_),
    ("ln1_scale", m.ln1Scale_), ("ln1_bias", m.ln1Bias_), ("output_weight", m.outputWeight_),
    ("output_bias", m.outputBias_)]

/-- The file has all of the required tensors. -/
def Complete (tensors : List TensorRecord) : Prop :=
  ∀ name ∈ requiredTensors, ∃ t ∈ tensors, t.name = text name

instance (tensors : List TensorRecord) : Decidable (Complete tensors) := by
  unfold Complete
  infer_instance

theorem lookup_isSome {tensors : List (Bytes × TensorData)} {name : Bytes}
    (h : ∃ t ∈ tensors, t.1 = name) : ∃ td, tensors.lookup name = some td := by
  obtain ⟨t, ht, rfl⟩ := h
  induction tensors with
  | nil => exact absurd ht List.not_mem_nil
  | cons u tensors ih =>
    by_cases hu : t.1 = u.1
    · exact ⟨u.2, by rw [hu, List.lookup_cons_self]⟩
    · have hne : (t.1 == u.1) = false := by simpa using hu
      rw [List.lookup_cons, hne]
      apply ih
      exact (List.mem_cons.mp ht).resolve_left fun heq => hu (by rw [heq])

/-- A model is made of the tensors with its names. -/
theorem assemble_some {tensors : List (Bytes × TensorData)}
    (h : ∀ name ∈ requiredTensors, ∃ td, tensors.lookup (text name) = some td) (numLabels : Nat)
    (labels : List Bytes) :
    ∃ m, assemble tensors numLabels labels = some m ∧ m.numClasses_ = numLabels ∧
      m.labels_ = labels ∧
      ∀ p ∈ m.weights, (tensors.lookup (text p.1)).map TensorData.data = some p.2 := by
  simp only [requiredTensors, List.forall_mem_cons] at h
  obtain ⟨⟨ew, hew⟩, ⟨eb, heb⟩, ⟨l0s, hl0s⟩, ⟨l0b, hl0b⟩, ⟨cw, hcw⟩, ⟨cb, hcb⟩, ⟨l1s, hl1s⟩,
    ⟨l1b, hl1b⟩, ⟨ow, how⟩, ⟨ob, hob⟩, -⟩ := h
  refine ⟨⟨ew.data, eb.data, l0s.data, l0b.data, cw.data, cb.data, l1s.data, l1b.data, ow.data,
    ob.data, numLabels, labels⟩, ?_, rfl, rfl, ?_⟩
  · simp [assemble, hew, heb, hl0s, hl0b, hcw, hcb, hl1s, hl1b, how, hob]
  · simp [MagikaModel.weights, hew, heb, hl0s, hl0b, hcw, hcb, hl1s, hl1b, how, hob]

theorem Complete.assembled {tensors : List TensorRecord} (h : Complete tensors) (numLabels : Nat)
    (labels : List Bytes) :
    ∃ m, assemble (tensors.map loaded).reverse numLabels labels = some m ∧
      m.numClasses_ = numLabels ∧ m.labels_ = labels ∧
      ∀ p ∈ m.weights,
        ((tensors.map loaded).reverse.lookup (text p.1)).map TensorData.data = some p.2 := by
  apply assemble_some
  intro name hname
  obtain ⟨t, ht, heq⟩ := h name hname
  apply lookup_isSome
  exact ⟨t.loaded, List.mem_reverse.mpr (List.mem_map_of_mem ht), heq⟩

/-- Behind the magic number and the version. -/
theorem loadOver_header (before rest : Bytes) :
    loadOver before (text "DSMG" ++ (encode32 1 ++ rest)) = loadTensors { rest := rest } := by
  have hread := read_all (text "DSMG") (encode32 1 ++ rest)
  have hlen : (text "DSMG").length = 4 := by decide
  rw [hlen] at hread
  have hmagic : (text "DSMG" ++ before.drop 4).take 4 = text "DSMG" := by
    rw [← hlen, List.take_left]
  simp only [loadOver, hread, hlen, hmagic, readVal_encode32 (show 1 < 2 ^ 32 by decide)]
  rfl

/-- A whole file is read as the tensors and labels that it is made of. -/
theorem loadOver_bytes (before : Bytes) {tensors : List TensorRecord} {labels : List Bytes}
    (htensors : Readable tensors) (hcount : tensors.length < 2 ^ 32)
    (hlabels : ∀ l ∈ labels, l.length < 2 ^ 32) (hnum : labels.length < 2 ^ 32) {m : MagikaModel}
    (hm : assemble (tensors.map loaded).reverse labels.length labels = some m) :
    loadOver before (fileBytes tensors labels) = .ok m := by
  have hfile : fileBytes tensors labels = text "DSMG" ++ (encode32 1 ++
      (encode32 tensors.length ++ (tensors.flatMap TensorRecord.bytes ++ fileTail labels))) := by
    simp [fileBytes, fileHead]
  have hread := readTensors_bytes htensors (fileTail labels) []
  rw [List.append_nil] at hread
  rw [hfile, loadOver_header, loadTensors, readVal_encode32 hcount]
  simp only [hread, bind, Except.bind]
  rw [fileTail, readVal_encode32 hnum]
  simp only [readLabels_bytes hlabels, hm]

end Magika
