import DeepSeer.MagikaForward
import DeepSeer.MagikaWriter

/-!
From the tensors to a prediction. The script flattens the tensors and writes them,
the loader reads them back, and the forward pass indexes the flat arrays: what it
computes is the network of the tensors that the script was given.
-/
namespace Magika

open ByteMemory ByteText CountedLoops InputFile TensorRecord

/-- `flatten` of one, two and three dimensions. -/
def flat1 (n : Nat) (f : Nat → Word) : List Word := (List.range n).map f

def flat2 (rows cols : Nat) (x : Table) : List Word :=
  (List.range (rows * cols)).map fun j => x (j / cols) (j % cols)

def flat3 (planes rows cols : Nat) (x : Nat → Table) : List Word :=
  (List.range (planes * rows * cols)).map fun j => x (j / cols / rows) (j / cols % rows) (j % cols)

theorem load_flat1 {n i : Nat} (f : Nat → Word) (hi : i < n) :
    load (flat1 n f).toArray i = some (f i) := by
  simp [load, flat1, hi]

theorem load_flat2 {rows cols s d : Nat} (x : Table) (hs : s < rows) (hd : d < cols) :
    load (flat2 rows cols x).toArray (s * cols + d) = some (x s d) := by
  have hlt := feature_lt hs hd
  simp [load, flat2, hlt, position_row hd, position_col hd]

theorem load_flat3 {planes rows cols p s d : Nat} (x : Nat → Table) (hp : p < planes)
    (hs : s < rows) (hd : d < cols) :
    load (flat3 planes rows cols x).toArray ((p * rows + s) * cols + d) = some (x p s d) := by
  have hlt := feature_lt (feature_lt hp hs) hd
  simp [load, flat3, hlt, position_row hd, position_col hd, position_row hs, position_col hs]

/-- The initializers of the graph under their short names, in their shapes. -/
def initializers (w : Tensors) : List (String × NpArray) :=
  [("embed_weight", ⟨[257, 64], flat2 257 64 w.embedWeight⟩),
    ("embed_bias", ⟨[1, 1, 64], flat1 64 w.embedBias⟩),
    ("ln0_scale", ⟨[1, 512, 1], flat1 512 w.ln0Scale⟩),
    ("ln0_bias", ⟨[1, 512, 1], flat1 512 w.ln0Bias⟩),
    ("conv_weight", ⟨[512, 256, 5, 1], flat3 512 256 5 w.convWeight⟩),
    ("conv_bias", ⟨[1, 512, 1], flat1 512 w.convBias⟩),
    ("ln1_scale", ⟨[1, 512], flat1 512 w.ln1Scale⟩),
    ("ln1_bias", ⟨[1, 512], flat1 512 w.ln1Bias⟩),
    ("output_weight", ⟨[512, w.numClasses], flat2 512 w.numClasses w.outputWeight⟩),
    ("output_bias", ⟨[1, w.numClasses], flat1 w.numClasses w.outputBias⟩)]

/-- The tensors with the labels of the configuration. -/
def Tensors.labelled (w : Tensors) (labels : List String) : Tensors :=
  { w with numClasses := labels.length, labels := labels.map utf8 }

/-- Singleton dimensions do not count. -/
theorem prod_squeeze {shape : List Nat} (h : ∀ d ∈ shape, 1 ≤ d) :
    (squeeze shape).prod = shape.prod := by
  have hfilter : (shape.filter (1 < ·)).prod = shape.prod := by
    induction shape with
    | nil => rfl
    | cons d shape ih =>
      obtain ⟨hd, hshape⟩ := List.forall_mem_cons.mp h
      by_cases hone : 1 < d
      · rw [List.filter_cons_of_pos (by simpa using hone), List.prod_cons, List.prod_cons,
          ih hshape]
      · obtain rfl : d = 1 := by omega
        rw [List.filter_cons_of_neg (by simp), List.prod_cons, ih hshape, Nat.one_mul]
  unfold squeeze
  dsimp only
  split
  · next hnil =>
    rw [← hfilter, List.length_eq_zero_iff.mp hnil]
    rfl
  · exact hfilter

theorem mem_squeeze {shape : List Nat} {d : Nat} (h : d ∈ squeeze shape) : d = 1 ∨ d ∈ shape := by
  unfold squeeze at h
  dsimp only at h
  split at h
  · exact .inl (List.mem_singleton.mp h)
  · exact .inr (List.mem_of_mem_filter h)

theorem length_squeeze (shape : List Nat) : (squeeze shape).length ≤ shape.length + 1 := by
  unfold squeeze
  dsimp only
  split
  · simp
  · exact Nat.le_succ_of_le (List.length_filter_le _ _)

theorem flat_fits {name : String} {shape : List Nat} {data : List Word}
    (hname : (utf8 name).length < 2 ^ 32) (hdims : shape.length < 4294967295)
    (hshape : ∀ d ∈ shape, 1 ≤ d ∧ d < 2 ^ 32) (hsize : data.length < 2 ^ 32)
    (hprod : shape.prod = data.length) : Fits (name, ⟨shape, data⟩) := by
  have hle := length_squeeze shape
  refine ⟨hname, show (squeeze shape).length < 2 ^ 32 by omega, ?_, hsize, ?_⟩
  · intro d hd
    rcases mem_squeeze hd with rfl | hmem
    · decide
    · exact (hshape d hmem).2
  · exact (prod_squeeze fun d hd => (hshape d hd).1).trans hprod

theorem initializers_fit (w : Tensors) (hpos : 1 ≤ w.numClasses)
    (hmax : kConvOut * w.numClasses < 2 ^ 32) : ∀ t ∈ initializers w, Fits t := by
  have hmax' : 512 * w.numClasses < 4294967296 := hmax
  have hn : w.numClasses < 4294967296 := by omega
  have hnames : ∀ name ∈ requiredTensors, (utf8 name).length < 2 ^ 32 := by decide +kernel
  simp only [requiredTensors, List.forall_mem_cons] at hnames
  obtain ⟨h0, h1, h2, h3, h4, h5, h6, h7, h8, h9, -⟩ := hnames
  simp only [initializers, List.forall_mem_cons]
  refine ⟨flat_fits h0 ?_ ?_ ?_ ?_, flat_fits h1 ?_ ?_ ?_ ?_, flat_fits h2 ?_ ?_ ?_ ?_,
    flat_fits h3 ?_ ?_ ?_ ?_, flat_fits h4 ?_ ?_ ?_ ?_, flat_fits h5 ?_ ?_ ?_ ?_,
    flat_fits h6 ?_ ?_ ?_ ?_, flat_fits h7 ?_ ?_ ?_ ?_, flat_fits h8 ?_ ?_ ?_ ?_,
    flat_fits h9 ?_ ?_ ?_ ?_, by simp⟩ <;>
    simp [flat1, flat2, flat3, hpos, hn, hmax']

section exported

variable {w : Tensors} {m : MagikaModel}
  (hweights : ∀ p ∈ m.weights, ((((initializers w).map record).map loaded).reverse.lookup
    (text p.1)).map TensorData.data = some p.2)
include hweights

/-- The arrays of the model are those that were written, each under its name. -/
theorem exported_array {k : Nat} {name stored : String} {v : Array Word} {shape : List Nat}
    {data : List Word} (hp : m.weights[k]? = some (name, v))
    (ht : (initializers w)[k]? = some (stored, ⟨shape, data⟩)) : v = data.toArray := by
  have hmodel : m.weights.map Prod.fst = requiredTensors := rfl
  have hscript : (initializers w).map Prod.fst = requiredTensors := rfl
  have hname : name = stored := by
    have hk := congrArg (fun names => names[k]?) (hmodel.trans hscript.symm)
    simpa [hp, ht] using hk
  have hmem : (name, v) ∈ m.weights := List.mem_of_getElem? hp
  have hneeded : name ∈ requiredTensors := List.mem_map_of_mem (f := Prod.fst) hmem
  have hnodup : ((initializers w).map Prod.fst).Nodup := by
    rw [hscript]
    decide
  obtain ⟨td, htd, hdata⟩ := Option.map_eq_some_iff.mp (hweights _ hmem)
  rw [← utf8_required _ hneeded, hname] at htd
  exact hdata.symm.trans (lookup_record hnodup (List.mem_of_getElem? ht) htd)

/-- A model with the arrays of the script represents the tensors. -/
theorem exported_represents (hpos : 1 ≤ w.numClasses)
    (hmax : kConvOut * w.numClasses < 2 ^ 32) (hclasses : m.numClasses_ = w.numClasses)
    (hlabels : m.labels_ = w.labels) : Represents m w := by
  have h0 : m.embedWeight_ = (flat2 257 64 w.embedWeight).toArray :=
    exported_array hweights (k := 0) rfl rfl
  have h1 : m.embedBias_ = (flat1 64 w.embedBias).toArray :=
    exported_array hweights (k := 1) rfl rfl
  have h2 : m.ln0Scale_ = (flat1 512 w.ln0Scale).toArray :=
    exported_array hweights (k := 2) rfl rfl
  have h3 : m.ln0Bias_ = (flat1 512 w.ln0Bias).toArray :=
    exported_array hweights (k := 3) rfl rfl
  have h4 : m.convWeight_ = (flat3 512 256 5 w.convWeight).toArray :=
    exported_array hweights (k := 4) rfl rfl
  have h5 : m.convBias_ = (flat1 512 w.convBias).toArray :=
    exported_array hweights (k := 5) rfl rfl
  have h6 : m.ln1Scale_ = (flat1 512 w.ln1Scale).toArray :=
    exported_array hweights (k := 6) rfl rfl
  have h7 : m.ln1Bias_ = (flat1 512 w.ln1Bias).toArray :=
    exported_array hweights (k := 7) rfl rfl
  have h8 : m.outputWeight_ = (flat2 512 w.numClasses w.outputWeight).toArray :=
    exported_array hweights (k := 8) rfl rfl
  have h9 : m.outputBias_ = (flat1 w.numClasses w.outputBias).toArray :=
    exported_array hweights (k := 9) rfl rfl
  refine ⟨?_, ?_, ?_, ?_, ?_, ?_, ?_, ?_, ?_, ?_, hclasses.symm, hlabels.symm, ?_⟩
  · intro token d ht hd
    have hlt := feature_lt (Nat.lt_succ_of_le ht) hd
    rw [h0, u32_eq (lt_trans hlt (by decide))]
    exact load_flat2 _ (Nat.lt_succ_of_le ht) hd
  · intro d hd
    rw [h1]
    exact load_flat1 _ hd
  · intro s hs
    rw [h2]
    exact load_flat1 _ hs
  · intro s hs
    rw [h3]
    exact load_flat1 _ hs
  · intro oc ic k ho hi hk
    have hlt := feature_lt (feature_lt ho hi) hk
    rw [h4, u32_eq (lt_trans hlt (by decide))]
    exact load_flat3 _ ho hi hk
  · intro oc ho
    rw [h5]
    exact load_flat1 _ ho
  · intro i hi
    rw [h6]
    exact load_flat1 _ hi
  · intro i hi
    rw [h7]
    exact load_flat1 _ hi
  · intro i c hi hc
    rw [hclasses] at hc ⊢
    rw [h8, u32_eq (lt_trans (feature_lt hi hc) hmax)]
    exact load_flat2 _ hi hc
  · intro c hc
    rw [hclasses] at hc
    rw [h9]
    exact load_flat1 _ hc
  · rw [hclasses]
    exact hpos

end exported

/-- What the script writes of the tensors of a network loads as a model that computes
the network, for every payload. -/
theorem exported_predicts (fa : FloatArith) (w : Tensors) (labels : List String)
    (hpos : labels ≠ []) (hmax : kConvOut * labels.length < 2 ^ 32)
    (hlabels : ∀ l ∈ labels, (utf8 l).length < 2 ^ 32) :
    ∃ file m, writeFile (initializers (w.labelled labels)) labels = some file ∧
      (∀ before, loadOver before file = .ok m) ∧
      ∀ payload, predict fa m payload =
        some (Network.prediction fa (w.labelled labels) payload) := by
  have hclasses : 1 ≤ (w.labelled labels).numClasses := List.length_pos_of_ne_nil hpos
  have hnum : labels.length < 2 ^ 32 := by
    unfold kConvOut at hmax
    omega
  have harrays := initializers_fit (w.labelled labels) hclasses hmax
  have hcomplete : Complete ((initializers (w.labelled labels)).map record) := by
    intro name hname
    have hscript : (initializers (w.labelled labels)).map Prod.fst = requiredTensors := rfl
    rw [← hscript] at hname
    obtain ⟨t, ht, rfl⟩ := List.mem_map.mp hname
    have hneeded : t.1 ∈ requiredTensors := hscript ▸ List.mem_map_of_mem (f := Prod.fst) ht
    exact ⟨record t, List.mem_map_of_mem ht, utf8_required _ hneeded⟩
  have hreadable : Readable ((initializers (w.labelled labels)).map record) := by
    intro r hr
    obtain ⟨t, ht, rfl⟩ := List.mem_map.mp hr
    have hsize := (harrays t ht).size
    refine ⟨(harrays t ht).formed, ?_⟩
    simp only [record, maxSize]
    omega
  have hfit : ∀ l ∈ labels.map utf8, l.length < 2 ^ 32 := by
    intro l hl
    obtain ⟨s, hs, rfl⟩ := List.mem_map.mp hl
    exact hlabels s hs
  obtain ⟨m, hm, hnumber, hlabel, hweights⟩ :=
    hcomplete.assembled (labels.map utf8).length (labels.map utf8)
  rw [List.length_map] at hnumber
  have hrepresents := exported_represents hweights hclasses hmax hnumber hlabel
  refine ⟨_, m, writeFile_some harrays (by simp [initializers]) hlabels hnum, ?_,
    hrepresents.predict fa⟩
  intro before
  exact loadOver_bytes before hreadable (by simp [initializers]) hfit (by simpa using hnum) hm

/-- Tensors whose elements tell their indices. -/
def indexedTensors : Tensors where
  embedWeight token d := UInt32.ofNat (64 * token + d)
  embedBias d := UInt32.ofNat d
  ln0Scale s := UInt32.ofNat s
  ln0Bias s := UInt32.ofNat s
  convWeight oc ic k := UInt32.ofNat (1280 * oc + 5 * ic + k)
  convBias oc := UInt32.ofNat oc
  ln1Scale i := UInt32.ofNat i
  ln1Bias i := UInt32.ofNat i
  outputWeight i c := UInt32.ofNat (2 * i + c)
  outputBias c := UInt32.ofNat c
  numClasses := 0
  labels := []

theorem exported_predicts_indexed :
    ∃ file m, writeFile (initializers (indexedTensors.labelled ["ai", "pdf"])) ["ai", "pdf"] =
        some file ∧ (∀ before, loadOver before file = .ok m) ∧
      ∀ payload, predict single m payload =
        some (Network.prediction single (indexedTensors.labelled ["ai", "pdf"]) payload) :=
  exported_predicts single indexedTensors ["ai", "pdf"] (by decide) (by decide) (by decide +kernel)

end Magika
