import DeepSeer.MagikaTruncation
import Mathlib.Data.List.Nodup

/-!
The script that extracts the weights. What it writes is read back as the arrays
and labels that it was given, in whatever order the arrays are, and with arrays
among them that the model does not need.
-/
namespace Magika

open ByteMemory ByteText InputFile TensorRecord

/-- `encode("utf-8")`. -/
def utf8 (s : String) : Bytes := s.toUTF8.data.toList

/-- `struct.pack("<I", n)`, which raises where the number does not fit. -/
def pack (n : Nat) : Option Bytes := if n < 2 ^ 32 then some (encode32 n) else none

/-- An array of `np.float32`, its elements in the order of `flatten`. -/
structure NpArray where
  shape : List Nat
  data : List Word

/-- The shape that is stored, without the singleton dimensions. -/
def squeeze (orig : List Nat) : List Nat :=
  let shape := orig.filter (1 < ·)
  if shape.length = 0 then [1] else shape

/-- What a loop over a list writes. -/
def writeEach {α : Type} (write : α → Option Bytes) : List α → Option Bytes
  | [] => some []
  | a :: rest => do
    let first ← write a
    let more ← writeEach write rest
    some (first ++ more)

def writeString (s : String) : Option Bytes := do
  let name_bytes := utf8 s
  let length ← pack name_bytes.length
  some (length ++ name_bytes)

def writeTensor (t : String × List Nat × List Word) : Option Bytes := do
  let name ← writeString t.1
  let dims ← pack t.2.1.length
  let shape ← writeEach pack t.2.1
  some (name ++ (dims ++ (shape ++ t.2.2.flatMap wordBytes)))

/-- The array behind its short name, as it is put into the list of tensors. -/
def prepare (t : String × NpArray) : String × List Nat × List Word :=
  (t.1, squeeze t.2.shape, t.2.data)

/-- The file that `main` writes, or none where it raises. -/
def writeFile (arrays : List (String × NpArray)) (labels : List String) : Option Bytes := do
  let tensors := arrays.map prepare
  let version ← pack 1
  let count ← pack tensors.length
  let body ← writeEach writeTensor tensors
  let numLabels ← pack labels.length
  let names ← writeEach writeString labels
  some (text "DSMG" ++ (version ++ (count ++ body)) ++ (numLabels ++ names))

theorem utf8_injective {s t : String} (h : utf8 s = utf8 t) : s = t := by
  apply String.toByteArray_inj.mp
  exact ByteArray.ext (Array.toList_inj.mp h)

/-- The names that the loader looks for are their own encoding. -/
theorem utf8_required : ∀ name ∈ requiredTensors, utf8 name = text name := by decide +kernel

theorem pack_some {n : Nat} (h : n < 2 ^ 32) : pack n = some (encode32 n) := if_pos h

theorem writeEach_some {α : Type} {write : α → Option Bytes} {bytes : α → Bytes} {l : List α}
    (h : ∀ a ∈ l, write a = some (bytes a)) : writeEach write l = some (l.flatMap bytes) := by
  induction l with
  | nil => rfl
  | cons a rest ih =>
    obtain ⟨ha, hrest⟩ := List.forall_mem_cons.mp h
    simp [writeEach, ha, ih hrest]

theorem writeString_some {s : String} (h : (utf8 s).length < 2 ^ 32) :
    writeString s = some (lengthPrefixed (utf8 s)) := by
  simp [writeString, pack_some h, lengthPrefixed]

/-- The tensor that is written for an array. -/
def record (t : String × NpArray) : TensorRecord :=
  { name := utf8 t.1, shape := squeeze t.2.shape, data := t.2.data }

/-- The lengths of an array fit, and it has as many elements as its squeezed shape says. -/
structure Fits (t : String × NpArray) : Prop where
  name : (utf8 t.1).length < 2 ^ 32
  dims : (squeeze t.2.shape).length < 2 ^ 32
  shape : ∀ d ∈ squeeze t.2.shape, d < 2 ^ 32
  size : t.2.data.length < 2 ^ 32
  product : (squeeze t.2.shape).prod = t.2.data.length

theorem Fits.formed {t : String × NpArray} (h : Fits t) : (record t).Formed :=
  ⟨h.name, h.dims, h.shape, h.product.symm⟩

theorem writeTensor_some {t : String × NpArray} (h : Fits t) :
    writeTensor (prepare t) = some (record t).bytes := by
  have hshape : writeEach pack (squeeze t.2.shape) = some ((squeeze t.2.shape).flatMap encode32) :=
    writeEach_some fun d hd => pack_some (h.shape d hd)
  simp [writeTensor, prepare, writeString_some h.name, pack_some h.dims, hshape, record,
    TensorRecord.bytes]

theorem writeEach_prepare {arrays : List (String × NpArray)} (h : ∀ t ∈ arrays, Fits t) :
    writeEach writeTensor (arrays.map prepare) =
      some ((arrays.map record).flatMap TensorRecord.bytes) := by
  induction arrays with
  | nil => rfl
  | cons t arrays ih =>
    obtain ⟨ht, harrays⟩ := List.forall_mem_cons.mp h
    simp [writeEach, writeTensor_some ht, ih harrays]

/-- The script writes the file of its tensors and labels. -/
theorem writeFile_some {arrays : List (String × NpArray)} {labels : List String}
    (harrays : ∀ t ∈ arrays, Fits t) (hcount : arrays.length < 2 ^ 32)
    (hlabels : ∀ l ∈ labels, (utf8 l).length < 2 ^ 32) (hnum : labels.length < 2 ^ 32) :
    writeFile arrays labels = some (fileBytes (arrays.map record) (labels.map utf8)) := by
  have hcounted : (arrays.map prepare).length < 2 ^ 32 := by simpa using hcount
  have hnames : writeEach writeString labels = some (labels.flatMap fun l =>
      lengthPrefixed (utf8 l)) :=
    writeEach_some fun l hl => writeString_some (hlabels l hl)
  simp only [writeFile, pack_some (show 1 < 2 ^ 32 by decide), pack_some hcounted,
    writeEach_prepare harrays, pack_some hnum, hnames, Option.bind_eq_bind, Option.bind_some]
  simp [fileBytes, fileHead, fileTail, List.flatMap_map]

/-- The data that is found under a name is the data of the array with this name. -/
theorem lookup_record {arrays : List (String × NpArray)} (h : (arrays.map Prod.fst).Nodup)
    {t : String × NpArray} (ht : t ∈ arrays) {td : TensorData}
    (hfound : ((arrays.map record).map loaded).reverse.lookup (utf8 t.1) = some td) :
    td.data = t.2.data.toArray := by
  obtain ⟨first, last, hlist, -⟩ := List.lookup_eq_some_iff.mp hfound
  have hmem : (utf8 t.1, td) ∈ ((arrays.map record).map loaded).reverse := by
    rw [hlist]
    exact List.mem_append_right first List.mem_cons_self
  obtain ⟨u, hu, hloaded⟩ : ∃ u ∈ arrays, (record u).loaded = (utf8 t.1, td) := by
    simpa using hmem
  have hname : u.1 = t.1 := utf8_injective (congrArg Prod.fst hloaded)
  have hsame : u = t := List.inj_on_of_nodup_map h hu ht hname
  subst hsame
  rw [loaded, Prod.mk.injEq] at hloaded
  rw [← hloaded.2]
  rfl

/-- The file of the script loads as a model with the data of its arrays and its labels. -/
theorem writeFile_loads (arrays : List (String × NpArray)) (labels : List String)
    (hnames : (arrays.map Prod.fst).Nodup)
    (hrequired : ∀ name ∈ requiredTensors, name ∈ arrays.map Prod.fst)
    (harrays : ∀ t ∈ arrays, Fits t) (hcount : arrays.length < 2 ^ 32)
    (hlabels : ∀ l ∈ labels, (utf8 l).length < 2 ^ 32) (hnum : labels.length < 2 ^ 32) :
    ∃ file m, writeFile arrays labels = some file ∧ (∀ before, loadOver before file = .ok m) ∧
      (∀ t ∈ arrays, ∀ p ∈ m.weights, t.1 = p.1 → p.2 = t.2.data.toArray) ∧
      m.labels_ = labels.map utf8 ∧ m.numClasses_ = labels.length := by
  have hcomplete : Complete (arrays.map record) := by
    intro name hname
    obtain ⟨t, ht, rfl⟩ := List.mem_map.mp (hrequired name hname)
    exact ⟨record t, List.mem_map_of_mem ht, utf8_required _ hname⟩
  have hreadable : Readable (arrays.map record) := by
    intro r hr
    obtain ⟨t, ht, rfl⟩ := List.mem_map.mp hr
    have hsize := (harrays t ht).size
    refine ⟨(harrays t ht).formed, ?_⟩
    simp only [record, maxSize]
    omega
  have hfit : ∀ l ∈ labels.map utf8, l.length < 2 ^ 32 := by
    intro l hl
    obtain ⟨s, hs, rfl⟩ := List.mem_map.mp hl
    exact hlabels s hs
  obtain ⟨m, hm, hclasses, hlabel, hweights⟩ :=
    hcomplete.assembled (labels.map utf8).length (labels.map utf8)
  refine ⟨_, m, writeFile_some harrays hcount hlabels hnum, ?_, ?_, hlabel, ?_⟩
  · intro before
    exact loadOver_bytes before hreadable (by simpa using hcount) hfit (by simpa using hnum) hm
  · intro t ht p hp hname
    have hneeded : p.1 ∈ requiredTensors := List.mem_map_of_mem (f := Prod.fst) hp
    obtain ⟨td, htd, hdata⟩ := Option.map_eq_some_iff.mp (hweights p hp)
    rw [← utf8_required _ hneeded, ← hname] at htd
    rw [← hdata, lookup_record hnames ht htd]
  · rw [hclasses, List.length_map]

/-- The required tensors, each with one element, in front of one that no model needs. -/
def smallArrays : List (String × NpArray) :=
  (requiredTensors ++ ["const_fold_opt__209"]).map fun name => (name, ⟨[1, 1], [0]⟩)

theorem writeFile_loads_small :
    ∃ file m, writeFile smallArrays ["ai", "pdf"] = some file ∧
      (∀ before, loadOver before file = .ok m) ∧
      (∀ t ∈ smallArrays, ∀ p ∈ m.weights, t.1 = p.1 → p.2 = t.2.data.toArray) ∧
      m.labels_ = ["ai", "pdf"].map utf8 ∧ m.numClasses_ = ["ai", "pdf"].length := by
  have hfits : ∀ t ∈ smallArrays, Fits t := by
    have hname : ∀ name ∈ requiredTensors ++ ["const_fold_opt__209"],
        (utf8 name).length < 2 ^ 32 := by
      decide +kernel
    intro t ht
    obtain ⟨name, hmem, rfl⟩ := List.mem_map.mp ht
    have hshape : squeeze [1, 1] = [1] := rfl
    exact ⟨hname name hmem, by simp [hshape], by simp [hshape], by simp, by simp [hshape]⟩
  exact writeFile_loads smallArrays ["ai", "pdf"] (by decide +kernel) (by decide +kernel) hfits
    (by decide) (by decide +kernel) (by decide)

end Magika
