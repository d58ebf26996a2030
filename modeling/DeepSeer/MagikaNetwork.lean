import DeepSeer.FilledArrays
import DeepSeer.MagikaTokens

/-!
The network of the model as functions from positions to values, one for each
layer, and that the loops of the forward pass compute exactly these. The sums are
taken in the order of the loops, so the results agree in the last bit, for
whatever the arithmetic is.
-/
namespace Magika

open ByteMemory ByteText CountedLoops FilledArrays

/-- Values by row and column. -/
abbrev Table := Nat → Nat → Word

/-- The tensors by their indices, and the labels of the classes. -/
structure Tensors where
  embedWeight : Nat → Nat → Word
  embedBias : Nat → Word
  ln0Scale : Nat → Word
  ln0Bias : Nat → Word
  convWeight : Nat → Nat → Nat → Word
  convBias : Nat → Word
  ln1Scale : Nat → Word
  ln1Bias : Nat → Word
  outputWeight : Nat → Nat → Word
  outputBias : Nat → Word
  numClasses : Nat
  labels : List Bytes

/-- An element of an array of the model. -/
def weight (v : Array Word) (i : Nat) : Word := v.getD i 0

/-- The arrays of a model as the loops index them. -/
def MagikaModel.tensors (m : MagikaModel) : Tensors where
  embedWeight token d := weight m.embedWeight_ (u32 (token * kEmbedDim + d))
  embedBias := weight m.embedBias_
  ln0Scale := weight m.ln0Scale_
  ln0Bias := weight m.ln0Bias_
  convWeight oc ic k :=
    weight m.convWeight_ (u32 ((oc * kReshapedDim + ic) * kKernelSize + k))
  convBias := weight m.convBias_
  ln1Scale := weight m.ln1Scale_
  ln1Bias := weight m.ln1Bias_
  outputWeight i c := weight m.outputWeight_ (u32 (i * m.numClasses_ + c))
  outputBias := weight m.outputBias_
  numClasses := m.numClasses_
  labels := m.labels_

/-- Every element that the forward pass reads of an array is that of the tensor. -/
structure Represents (m : MagikaModel) (w : Tensors) : Prop where
  embedWeight : ∀ token d, token ≤ kPaddingToken → d < kEmbedDim →
    load m.embedWeight_ (u32 (token * kEmbedDim + d)) = some (w.embedWeight token d)
  embedBias : ∀ d, d < kEmbedDim → load m.embedBias_ d = some (w.embedBias d)
  ln0Scale : ∀ s, s < kReshapedSeq → load m.ln0Scale_ s = some (w.ln0Scale s)
  ln0Bias : ∀ s, s < kReshapedSeq → load m.ln0Bias_ s = some (w.ln0Bias s)
  convWeight : ∀ oc ic k, oc < kConvOut → ic < kReshapedDim → k < kKernelSize →
    load m.convWeight_ (u32 ((oc * kReshapedDim + ic) * kKernelSize + k)) =
      some (w.convWeight oc ic k)
  convBias : ∀ oc, oc < kConvOut → load m.convBias_ oc = some (w.convBias oc)
  ln1Scale : ∀ i, i < kConvOut → load m.ln1Scale_ i = some (w.ln1Scale i)
  ln1Bias : ∀ i, i < kConvOut → load m.ln1Bias_ i = some (w.ln1Bias i)
  outputWeight : ∀ i c, i < kConvOut → c < m.numClasses_ →
    load m.outputWeight_ (u32 (i * m.numClasses_ + c)) = some (w.outputWeight i c)
  outputBias : ∀ c, c < m.numClasses_ → load m.outputBias_ c = some (w.outputBias c)
  numClasses : w.numClasses = m.numClasses_
  labels : w.labels = m.labels_
  classes : 1 ≤ m.numClasses_

theorem load_weight {v : Array Word} {n i : Nat} (h : n ≤ v.size) (hi : i < n) :
    load v i = some (weight v i) := holds_within 0 h hi

theorem Covers.represents {m : MagikaModel} (h : Covers m) : Represents m m.tensors where
  embedWeight := by
    intro token d ht hd
    have hsize := h.embedWeight
    simp only [kPaddingToken, kEmbedDim, kVocabSize] at ht hd hsize ⊢
    have hlt : u32 (token * 64 + d) < m.embedWeight_.size := by
      rw [u32_eq (by omega)]
      omega
    exact load_weight le_rfl hlt
  embedBias d hd := load_weight h.embedBias hd
  ln0Scale s hs := load_weight h.ln0Scale hs
  ln0Bias s hs := load_weight h.ln0Bias hs
  convWeight := by
    intro oc ic k ho hi hk
    have hsize := h.convWeight
    simp only [kConvOut, kReshapedDim, kKernelSize] at ho hi hk hsize ⊢
    have hlt : u32 ((oc * 256 + ic) * 5 + k) < m.convWeight_.size := by
      rw [u32_eq (by omega)]
      omega
    exact load_weight le_rfl hlt
  convBias oc ho := load_weight h.convBias ho
  ln1Scale i hi := load_weight h.ln1Scale hi
  ln1Bias i hi := load_weight h.ln1Bias hi
  outputWeight i c hi hc :=
    load_weight le_rfl ((output_indices _ _).mpr h.outputWeight i hi c hc)
  outputBias c hc := load_weight h.outputBias hc
  numClasses := rfl
  labels := rfl
  classes := h.classes

namespace Network

variable (fa : FloatArith) (w : Tensors)

/-- The values `f 0`, …, `f (n - 1)` added to `start`, from left to right. -/
def total (start : Word) (n : Nat) (f : Nat → Word) : Word :=
  (List.range n).foldl (fun sum i => fa.add sum (f i)) start

def gelu (x : Word) : Word :=
  fa.mul (fa.mul fa.half x) (fa.add (fa.ofNat 1) (fa.tanh (fa.mul fa.kSqrt2OverPi
    (fa.add x (fa.mul (fa.mul (fa.mul fa.cubic x) x) x)))))

/-- The vector of each token. -/
def embedding (tokens : Nat → Nat) : Table := fun i d =>
  fa.add (w.embedWeight (tokens i) d) (w.embedBias d)

/-- The same values in rows of another length. -/
def reshape (cols cols' : Nat) (x : Table) : Table := fun s d =>
  x ((s * cols' + d) / cols) ((s * cols' + d) % cols)

section layerNorm

variable (rows : Nat) (x : Table)

/-- The mean of a feature over the sequence. -/
def mean (d : Nat) : Word :=
  fa.mul (total fa 0 rows fun s => x s d) (fa.div (fa.ofNat 1) (fa.ofNat rows))

def variance (d : Nat) : Word :=
  fa.max (fa.ofNat 0) (fa.sub
    (fa.mul (total fa 0 rows fun s => fa.mul (x s d) (x s d)) (fa.div (fa.ofNat 1) (fa.ofNat rows)))
    (fa.mul (mean fa rows x d) (mean fa rows x d)))

def invStd (d : Nat) : Word :=
  fa.div (fa.ofNat 1) (fa.sqrt (fa.add (variance fa rows x d) fa.kLnEps))

/-- Each feature normalized over the sequence, scaled and shifted by position. -/
def layerNorm (scale bias : Nat → Word) : Table := fun s d =>
  fa.add (fa.mul (fa.mul (fa.sub (x s d) (mean fa rows x d)) (invStd fa rows x d)) (scale s))
    (bias s)

end layerNorm

/-- The convolution at a position, for one of the output channels. -/
def conv1d (x : Table) : Table := fun pos oc =>
  (List.range kReshapedDim).foldl (fun sum ic => total fa sum kKernelSize fun k =>
    fa.mul (x (pos + k) ic) (w.convWeight oc ic k)) (w.convBias oc)

/-- The largest value of each channel over the sequence. -/
def globalMaxPool (rows : Nat) (x : Table) (c : Nat) : Word :=
  (List.range rows).foldl (fun o s => fa.max o (x s c)) fa.minusInfinity

section layerNorm1

variable (x : Nat → Word)

def mean1 : Word := fa.div (total fa (fa.ofNat 0) kConvOut x) (fa.ofNat kConvOut)

def variance1 : Word :=
  fa.div (total fa (fa.ofNat 0) kConvOut fun i =>
    fa.mul (fa.sub (x i) (mean1 fa x)) (fa.sub (x i) (mean1 fa x))) (fa.ofNat kConvOut)

def layerNorm1 (i : Nat) : Word :=
  fa.add (fa.mul (fa.mul (fa.sub (x i) (mean1 fa x))
    (fa.div (fa.ofNat 1) (fa.sqrt (fa.add (variance1 fa x) fa.kLnEps)))) (w.ln1Scale i))
    (w.ln1Bias i)

end layerNorm1

/-- The score of a class. -/
def dense (x : Nat → Word) (c : Nat) : Word :=
  total fa (w.outputBias c) kConvOut fun i => fa.mul (x i) (w.outputWeight i c)

/-- The first position of a largest value among the first `n`. -/
def argmax (n : Nat) (f : Nat → Word) : Nat :=
  (List.range (n - 1)).foldl (fun best i => if fa.less (f best) (f (i + 1)) then i + 1 else best) 0

/-- The exponential of a score, relative to the largest one. -/
def expo (n : Nat) (f : Nat → Word) (i : Nat) : Word := fa.exp (fa.sub (f i) (f (argmax fa n f)))

def softmax (n : Nat) (f : Nat → Word) (i : Nat) : Word :=
  fa.div (expo fa n f i) (total fa (fa.ofNat 0) n (expo fa n f))

/-- The features of a payload that the classification rests on: the strongest
response of each channel. -/
def features (payload : Bytes) : Nat → Word :=
  let tokens := fun i => (preprocess payload).getD i 0
  let embedded : Table := fun i d => gelu fa (embedding fa w tokens i d)
  let normalized := layerNorm fa kReshapedSeq (reshape kEmbedDim kReshapedDim embedded)
    w.ln0Scale w.ln0Bias
  globalMaxPool fa (kReshapedSeq - kKernelSize + 1)
    fun pos oc => gelu fa (conv1d fa w normalized pos oc)

def logits (payload : Bytes) : Nat → Word := dense fa w (layerNorm1 fa w (features fa w payload))

/-- The probability of each class. -/
def probabilities (payload : Bytes) : Nat → Word := softmax fa w.numClasses (logits fa w payload)

def classOf (payload : Bytes) : Nat := argmax fa w.numClasses (probabilities fa w payload)

def prediction (payload : Bytes) : Prediction where
  classIndex := u32 (classOf fa w payload)
  confidence := probabilities fa w payload (classOf fa w payload)
  label :=
    if u32 (classOf fa w payload) < w.labels.length then
      w.labels.getD (u32 (classOf fa w payload)) []
    else text "unknown"

theorem total_succ (start : Word) (n : Nat) (f : Nat → Word) :
    total fa start (n + 1) f = fa.add (total fa start n f) (f n) := by
  simp [total, List.range_succ]

theorem argmax_le (n : Nat) (f : Nat → Word) :
    (List.range n).foldl
      (fun best i => if fa.less (f best) (f (i + 1)) then i + 1 else best) 0 ≤ n := by
  induction n with
  | zero => simp
  | succ n ih =>
    rw [List.range_succ, List.foldl_append, List.foldl_cons, List.foldl_nil]
    split
    · omega
    · exact Nat.le_succ_of_le ih

theorem argmax_lt {n : Nat} (hn : 0 < n) (f : Nat → Word) : argmax fa n f < n := by
  have hle := argmax_le fa (n - 1) f
  unfold argmax
  omega

end Network

/-- The values of a table, row after row. -/
def Flat (rows cols : Nat) (x : Table) (v : Array Word) : Prop :=
  Holds (rows * cols) (fun j => x (j / cols) (j % cols)) v

theorem position_row {cols s d : Nat} (hd : d < cols) : (s * cols + d) / cols = s := by
  rw [Nat.add_comm, Nat.add_mul_div_right _ _ (by omega), Nat.div_eq_of_lt hd, Nat.zero_add]

theorem position_col {cols s d : Nat} (hd : d < cols) : (s * cols + d) % cols = d := by
  rw [Nat.add_comm, Nat.add_mul_mod_self_right, Nat.mod_eq_of_lt hd]

/-- Every position of a table is that of a row and a column. -/
theorem position_of {rows cols j : Nat} (hj : j < rows * cols) :
    j / cols < rows ∧ j % cols < cols ∧ j = j / cols * cols + j % cols := by
  have hcols : 0 < cols := by
    rcases Nat.eq_zero_or_pos cols with hz | hp
    · simp [hz] at hj
    · exact hp
  refine ⟨Nat.div_lt_of_lt_mul (by rwa [Nat.mul_comm]), Nat.mod_lt _ hcols, ?_⟩
  rw [Nat.mul_comm, Nat.div_add_mod]

theorem position_injective {cols s d s' d' : Nat} (hd : d < cols) (hd' : d' < cols)
    (h : s * cols + d = s' * cols + d') : s = s' ∧ d = d' := by
  have hs : (s * cols + d) / cols = (s' * cols + d') / cols := by rw [h]
  have hd : (s * cols + d) % cols = (s' * cols + d') % cols := by rw [h]
  rw [position_row ‹_›, position_row hd'] at hs
  rw [position_col ‹_›, position_col hd'] at hd
  exact ⟨hs, hd⟩

theorem Flat.get {rows cols s d : Nat} {x : Table} {v : Array Word} (h : Flat rows cols x v)
    (hs : s < rows) (hd : d < cols) : load v (s * cols + d) = some (x s d) := by
  have hget := Holds.get h (feature_lt hs hd)
  rwa [position_row hd, position_col hd] at hget

theorem Flat.reshaped {rows cols rows' cols' : Nat} {x : Table} {v : Array Word}
    (h : Flat rows cols x v) (hsize : rows * cols = rows' * cols') :
    Flat rows' cols' (Network.reshape cols cols' x) v := by
  unfold Flat at h ⊢
  rw [hsize] at h
  refine h.congr fun j hj => ?_
  have hpos := (position_of hj).2.2
  unfold Network.reshape
  rw [← hpos]

/-- Two loops that have written every row and column have written the table. -/
theorem Flat.of_loops {rows cols : Nat} {x : Table} {f : Nat → Word} {v : Array Word}
    {P : Nat → Prop} (h : Filled (rows * cols) P (fun j => x (j / cols) (j % cols)) f v)
    (hall : ∀ s d, s < rows → d < cols → P (s * cols + d)) : Flat rows cols x v := by
  apply h.full
  intro j hj
  obtain ⟨hrow, hcol, he⟩ := position_of hj
  rw [he]
  exact hall _ _ hrow hcol

end Magika
