import DeepSeer.MagikaFiles

/-!
Weight files that end too early. The count of the labels is read without a look
at the stream, so a file that ends at this count loads as one without labels.
-/
namespace Magika

open ByteMemory ByteText InputFile TensorRecord

/-- A well-formed file, of a size that an offset in a file can have. -/
structure WeightFile where
  tensors : List TensorRecord
  labels : List Bytes
  formed : ∀ t ∈ tensors, t.Formed
  numTensors : tensors.length < 2 ^ 32
  labelsFit : ∀ l ∈ labels, l.length < 2 ^ 32
  numLabels : labels.length < 2 ^ 32
  complete : Complete tensors
  size : (fileBytes tensors labels).length < 2 ^ 63

namespace WeightFile

def bytes (file : WeightFile) : Bytes := fileBytes file.tensors file.labels

/-- The data of a tensor is no larger than the file. -/
theorem readable (file : WeightFile) : Readable file.tensors := by
  intro t ht
  refine ⟨file.formed t ht, ?_⟩
  have hsize := file.size
  have hdata : 4 * t.data.length ≤ t.bytes.length := by
    have hwords := wordBytes_length t.data
    simp only [TensorRecord.bytes, List.length_append]
    omega
  have htensor : t.bytes.length ≤ (file.tensors.flatMap TensorRecord.bytes).length := by
    obtain ⟨first, last, hlist⟩ := List.append_of_mem ht
    simp only [hlist, List.flatMap_append, List.flatMap_cons, List.length_append]
    omega
  simp only [fileBytes, fileHead, List.length_append] at hsize
  unfold maxSize
  omega

end WeightFile

/-- The file ends at the count of its labels, or in it with nothing but zeros of it. -/
def EndsInLabelCount (tensors : List TensorRecord) (part : Bytes) : Prop :=
  ∃ zeros, part = fileHead tensors ++ zeros ∧ zeros.length < 4 ∧ ∀ b ∈ zeros, b = 0

theorem loadTensors_failed : Refused (loadTensors failed) := ⟨_, rfl⟩

/-- A file that ends in its magic number is refused whatever stands in the place of
the rest of it. -/
theorem loadOver_magic_cut (before : Bytes) {part : Bytes} (h : Cut part (text "DSMG")) :
    Refused (loadOver before part) := by
  have hread := read_short (show part.length < 4 from h.length_lt)
  unfold loadOver
  simp only [hread]
  by_cases hmagic : (part ++ before.drop part.length).take 4 = text "DSMG"
  · rw [hmagic]
    exact ⟨_, rfl⟩
  · refine ⟨text "Invalid magic in model file", ?_⟩
    simp [hmagic, throw, throwThe, MonadExceptOf.throw, bind, Except.bind]

theorem loadOver_version_cut (before : Bytes) {part : Bytes} (h : Cut part (encode32 1)) :
    Refused (loadOver before (text "DSMG" ++ part)) := by
  have hread := read_all (text "DSMG") part
  have hlen : (text "DSMG").length = 4 := by decide
  rw [hlen] at hread
  have hmagic : (text "DSMG" ++ before.drop 4).take 4 = text "DSMG" := by
    rw [← hlen, List.take_left]
  simp only [loadOver, hread, hlen, hmagic, readVal_cut h]
  by_cases hversion : number part = 1
  · rw [hversion]
    exact loadTensors_failed
  · refine ⟨text "Unsupported model version: " ++ decimal (number part), ?_⟩
    simp [hversion, throw, throwThe, MonadExceptOf.throw, bind, Except.bind]

/-- A file that ends before the count of its labels. -/
theorem loadOver_head_cut (before : Bytes) {tensors : List TensorRecord} (h : Readable tensors)
    (hcount : tensors.length < 2 ^ 32) {part : Bytes} (hc : Cut part (fileHead tensors)) :
    Refused (loadOver before part) := by
  rcases hc.append with hmagic | ⟨afterMagic, rfl, hafter⟩
  · exact loadOver_magic_cut before hmagic
  rcases hafter.append with hversion | ⟨counted, rfl, hcounted⟩
  · exact loadOver_version_cut before hversion
  rw [loadOver_header, loadTensors]
  rcases hcounted.append with hnum | ⟨more, rfl, hmore⟩
  · rw [readVal_cut hnum]
    by_cases hzero : number counted = 0
    · rw [hzero]
      exact ⟨_, rfl⟩
    · obtain ⟨message, hread⟩ := readTensors_failed [] hzero
      exact ⟨message, by simp [hread, bind, Except.bind]⟩
  · obtain ⟨message, hread⟩ := readTensors_cut h hmore []
    rw [readVal_encode32 hcount]
    exact ⟨message, by simp [hread, bind, Except.bind]⟩

/-- The part of a file behind its tensors decides the load of a file that has them. -/
theorem loadOver_tail (before : Bytes) {tensors : List TensorRecord} (h : Readable tensors)
    (hcount : tensors.length < 2 ^ 32) (rest : Bytes) :
    loadOver before (fileHead tensors ++ rest) = (do
      let (numLabels, f) := ({ rest := rest } : InputFile).readVal
      let (labels, _) ← readLabels f numLabels
      match assemble (tensors.map loaded).reverse numLabels labels with
      | none => throw (.message (text "Missing required tensors in model file"))
      | some model => .ok model) := by
  have hread := readTensors_bytes h rest []
  rw [List.append_nil] at hread
  have hfile : fileHead tensors ++ rest = text "DSMG" ++ (encode32 1 ++
      (encode32 tensors.length ++ (tensors.flatMap TensorRecord.bytes ++ rest))) := by
    simp [fileHead]
  rw [hfile, loadOver_header, loadTensors, readVal_encode32 hcount]
  dsimp only
  rw [hread]
  rfl

/-- A file that ends too early is refused with a message exactly when it does not
end at the count of its labels, or in it with nothing but zeros of it. -/
theorem truncated_refused_iff (file : WeightFile) (before : Bytes) {part : Bytes}
    (h : Cut part file.bytes) :
    Refused (loadOver before part) ↔ ¬ EndsInLabelCount file.tensors part := by
  constructor
  · rintro ⟨message, hmessage⟩ ⟨zeros, rfl, hlen, hzeros⟩
    have hnum : ({ rest := zeros } : InputFile).readVal = (0, failed) := by
      simp [readVal, read_short hlen, number_eq_zero.mpr hzeros]
    obtain ⟨m, hm, -⟩ := file.complete.assembled 0 []
    rw [loadOver_tail before file.readable file.numTensors, hnum] at hmessage
    simp [readLabels, bind, Except.bind, hm] at hmessage
  · intro hends
    rcases h.append with hhead | ⟨tail, rfl, htail⟩
    · exact loadOver_head_cut before file.readable file.numTensors hhead
    rw [loadOver_tail before file.readable file.numTensors]
    rcases htail.append with hnum | ⟨more, rfl, hmore⟩
    · have hne : number tail ≠ 0 := by
        intro hzero
        exact hends ⟨tail, rfl, hnum.length_lt, number_eq_zero.mp hzero⟩
      obtain ⟨message, hread⟩ := readLabels_failed hne
      rw [readVal_cut hnum]
      exact ⟨message, by simp [hread, bind, Except.bind]⟩
    · obtain ⟨message, hread⟩ := readLabels_cut file.labelsFit hmore
      rw [readVal_encode32 file.numLabels]
      exact ⟨message, by simp [hread, bind, Except.bind]⟩

/-- A file of empty tensors with one label. -/
def labelledFile : WeightFile where
  tensors := requiredTensors.map fun name => ⟨text name, [0], []⟩
  labels := [text "a"]
  formed := by
    intro t ht
    obtain ⟨name, hname, rfl⟩ := List.mem_map.mp ht
    have hlen : ∀ name ∈ requiredTensors, (text name).length < 2 ^ 32 := by decide +kernel
    exact ⟨hlen name hname, by simp, by simp, rfl⟩
  numTensors := by decide
  labelsFit := by decide
  numLabels := by decide
  complete := by decide +kernel
  size := by decide +kernel

theorem truncated_refused_magic :
    Refused (loadOver [] (text "DSM")) ↔ ¬ EndsInLabelCount labelledFile.tensors (text "DSM") :=
  truncated_refused_iff labelledFile []
    (And.intro (by decide +kernel) (by decide +kernel) : Cut (text "DSM") labelledFile.bytes)

/-- Without its labels and their count, the file loads as a model without labels. -/
theorem truncated_file_loads :
    Cut (fileHead labelledFile.tensors) labelledFile.bytes ∧ labelledFile.labels ≠ [] ∧
      loadFromFile (fileHead labelledFile.tensors) = .ok emptyModel := by
  refine ⟨⟨List.prefix_append _ _, by decide +kernel⟩, by decide, by decide +kernel⟩

end Magika
