import DeepSeer.MagikaModel

/-!
Which accesses of the forward pass stay inside of the arrays of a loaded model.
The intermediate arrays are large enough by their construction; the arrays of
the model have the sizes that the file gave them.
-/
namespace Magika

open ByteMemory ByteText CountedLoops

/-- The sizes that the forward pass relies on. The index into the output weights
wraps where there are more than `2 ^ 32` of them. -/
structure Covers (m : MagikaModel) : Prop where
  embedWeight : kVocabSize * kEmbedDim ≤ m.embedWeight_.size
  embedBias : kEmbedDim ≤ m.embedBias_.size
  ln0Scale : kReshapedSeq ≤ m.ln0Scale_.size
  ln0Bias : kReshapedSeq ≤ m.ln0Bias_.size
  convWeight : kConvOut * kReshapedDim * kKernelSize ≤ m.convWeight_.size
  convBias : kConvOut ≤ m.convBias_.size
  ln1Scale : kConvOut ≤ m.ln1Scale_.size
  ln1Bias : kConvOut ≤ m.ln1Bias_.size
  outputWeight : min (kConvOut * m.numClasses_) (2 ^ 32) ≤ m.outputWeight_.size
  outputBias : m.numClasses_ ≤ m.outputBias_.size
  classes : 1 ≤ m.numClasses_

theorem u32_eq {n : Nat} (h : n < 2 ^ 32) : u32 n = n := Nat.mod_eq_of_lt h

/-- The tokens of a payload: one for each input, none above the padding. -/
structure Tokens (tokens : Array Nat) : Prop where
  size : tokens.size = kInputLen
  bounded : ∀ i x, load tokens i = some x → x ≤ kPaddingToken

theorem Tokens.store {tokens : Array Nat} (h : Tokens tokens) {i : Nat} (hi : i < kInputLen)
    (b : UInt8) : Gives (store tokens i b.toNat) Tokens := by
  refine (gives_store (h.size.symm ▸ hi : i < tokens.size) b.toNat).imp fun t ht => ⟨ht.1, ?_⟩
  obtain ⟨-, rfl⟩ := ht
  refine ⟨by simpa using h.size, fun j x hx => ?_⟩
  rw [load, Array.getElem?_setIfInBounds] at hx
  split at hx
  · have hb := b.toNat_lt
    unfold kPaddingToken
    split at hx
    · cases hx
      omega
    · exact absurd hx (by simp)
  · exact h.bounded j x hx

/-- A loop that copies bytes of the payload into the tokens. -/
theorem Tokens.copy {tokens : Array Nat} (h : Tokens tokens) (payload : Bytes)
    (n source target : Nat) (hsource : source + n ≤ payload.length)
    (htarget : target + n ≤ kInputLen) :
    Gives (forLoop n (fun i tokens => do
      let b ← load payload.toArray (source + i)
      CountedLoops.store tokens (target + i) b.toNat) tokens) Tokens := by
  apply forLoop_gives Tokens _ h
  intro i s hi hs
  apply (gives_load (show source + i < payload.toArray.size by simp; omega)).bind
  intro b _
  exact hs.store (by omega) b

theorem extractInputTokens_gives (payload : Bytes) :
    Gives (extractInputTokens payload) Tokens := by
  have hpad : Tokens (Array.replicate kInputLen kPaddingToken) := by
    refine ⟨by simp, fun i x hx => ?_⟩
    rw [load, Array.getElem?_replicate] at hx
    split at hx <;> simp_all
  unfold extractInputTokens
  dsimp only
  split
  · exact .some hpad
  · have hbeg : (payload.takeWhile isWhitespace).length ≤ payload.length :=
      (List.takeWhile_sublist _).length_le
    have hfirst := hpad.copy payload
      (min kBegSize (payload.length - (payload.takeWhile isWhitespace).length))
      (payload.takeWhile isWhitespace).length 0 (by omega)
      (by unfold kInputLen; omega)
    simp only [Nat.zero_add] at hfirst
    apply hfirst.bind
    intro tokens htokens
    exact htokens.copy payload _ _ _ (by omega) (by unfold kInputLen; omega)

/-- An array of a known size. -/
def Sized (n : Nat) (v : Array Word) : Prop := v.size = n

theorem Sized.load {n i : Nat} {v : Array Word} (h : Sized n v) (hi : i < n) :
    Gives (load v i) fun _ => True :=
  (gives_load (h.symm ▸ hi : i < v.size)).imp fun _ hx => ⟨hx.1, trivial⟩

theorem Sized.store {n i : Nat} {v : Array Word} (h : Sized n v) (hi : i < n) (x : Word) :
    Gives (store v i x) (Sized n) :=
  (gives_store (h.symm ▸ hi : i < v.size) x).imp fun _ hw => ⟨hw.1, (store_size hw.1).trans h⟩

theorem sized_replicate (n : Nat) : Sized n (Array.replicate n 0) := by simp [Sized]

/-- A load from an array of the model, which may be larger than it needs to be. -/
theorem load_within {v : Array Word} {n i : Nat} (h : n ≤ v.size) (hi : i < n) :
    Gives (load v i) fun _ => True := Sized.load rfl (by omega)

variable (fa : FloatArith) {m : MagikaModel}

theorem embedding_gives (h : Covers m) {tokens : Array Nat} (ht : Tokens tokens) :
    Gives (embedding fa m tokens) (Sized 131072) := by
  apply forLoop_gives (Sized 131072) _ (sized_replicate _)
  intro i out hi hout
  apply (gives_load (ht.size.symm ▸ hi : i < tokens.size)).bind
  intro tok htok
  have htok256 : tok ≤ 256 := ht.bounded i tok htok
  apply forLoop_gives (Sized 131072) _ hout
  intro d out hd hout
  simp only [kInputLen, kBegSize, kEndSize, kEmbedDim, Nat.reduceAdd] at hi hd ⊢
  rw [u32_eq (show tok * 64 + d < 2 ^ 32 by omega), u32_eq (show i * 64 + d < 2 ^ 32 by omega)]
  apply (load_within h.embedWeight (show tok * 64 + d < 257 * 64 by omega)).bind
  intro weight _
  apply (load_within h.embedBias hd).bind
  intro bias _
  exact hout.store (by omega) _

theorem gelu_gives {n : Nat} {data : Array Word} (h : Sized n data) :
    Gives (gelu fa data) (Sized n) := by
  unfold gelu
  rw [h]
  apply forLoop_gives (Sized n) _ h
  intro i out hi hout
  apply (hout.load hi).bind
  intro x _
  exact hout.store hi _

/-- The position of a feature in the data of a sequence. -/
theorem feature_lt {seqLen dim s d : Nat} (hs : s < seqLen) (hd : d < dim) :
    s * dim + d < seqLen * dim :=
  calc s * dim + d < s * dim + dim := by omega
    _ = (s + 1) * dim := by rw [Nat.succ_mul]
    _ ≤ seqLen * dim := Nat.mul_le_mul_right dim hs

section layerNorm

variable {data scale bias : Array Word} {seqLen dim : Nat}

theorem featureSums_gives (h : Sized (seqLen * dim) data) (hbound : seqLen * dim ≤ 2 ^ 32) :
    Gives (featureSums fa data seqLen dim) fun sums => Sized dim sums.1 ∧ Sized dim sums.2 := by
  have hzero := sized_replicate dim
  apply forLoop_gives (fun sums : Array Word × Array Word => Sized dim sums.1 ∧ Sized dim sums.2) _
    ⟨hzero, hzero⟩
  intro s sums hs hsums
  apply forLoop_gives (fun sums : Array Word × Array Word => Sized dim sums.1 ∧ Sized dim sums.2) _
    hsums
  rintro d ⟨mean, var⟩ hd ⟨hmean, hvar⟩
  have hlt := feature_lt hs hd
  dsimp only
  rw [u32_eq (by omega)]
  apply (h.load hlt).bind
  intro v _
  apply (hmean.load hd).bind
  intro m _
  apply (hmean.store hd _).bind
  intro mean hmean
  apply (hvar.load hd).bind
  intro q _
  apply (hvar.store hd _).bind
  intro var hvar
  exact .some ⟨hmean, hvar⟩

theorem featureScales_gives {mean var : Array Word} (hmean : Sized dim mean)
    (hvar : Sized dim var) :
    Gives (featureScales fa seqLen dim mean var) fun scales =>
      Sized dim scales.1 ∧ Sized dim scales.2 := by
  apply (forLoop_gives (fun r => Sized dim r.1 ∧ Sized dim r.2.1 ∧ Sized dim r.2.2) _
    ⟨hmean, hvar, sized_replicate dim⟩).bind
  · rintro ⟨mean, var, invStd⟩ ⟨hmean, -, hinv⟩
    exact .some ⟨hmean, hinv⟩
  rintro d ⟨mean, var, invStd⟩ hd ⟨hmean, hvar, hinv⟩
  apply (hmean.load hd).bind
  intro m _
  apply (hmean.store hd _).bind
  intro mean hmean
  apply (hmean.load hd).bind
  intro m _
  apply (hvar.load hd).bind
  intro q _
  apply (hvar.store hd _).bind
  intro var hvar
  apply (hvar.load hd).bind
  intro q _
  apply (hinv.store hd _).bind
  intro invStd hinv
  exact .some ⟨hmean, hvar, hinv⟩

theorem layerNorm_gives (h : Sized (seqLen * dim) data) (hbound : seqLen * dim ≤ 2 ^ 32)
    (hscale : seqLen ≤ scale.size) (hbias : seqLen ≤ bias.size) :
    Gives (layerNorm fa data scale bias seqLen dim) (Sized (seqLen * dim)) := by
  apply (featureSums_gives fa h hbound).bind
  rintro ⟨mean, var⟩ ⟨hmean, hvar⟩
  apply (featureScales_gives fa hmean hvar).bind
  rintro ⟨mean, invStd⟩ ⟨hmean, hinv⟩
  apply forLoop_gives (Sized (seqLen * dim)) _ h
  intro s data hs hdata
  apply forLoop_gives (Sized (seqLen * dim)) _ hdata
  intro d data hd hdata
  have hlt := feature_lt hs hd
  rw [u32_eq (by omega)]
  apply (hdata.load hlt).bind
  intro v _
  apply (hmean.load hd).bind
  intro m _
  apply (hinv.load hd).bind
  intro inv _
  apply (load_within hscale hs).bind
  intro sc _
  apply (load_within hbias hs).bind
  intro b _
  exact hdata.store hlt _

end layerNorm

theorem convSum_gives (h : Covers m) {input : Array Word} (hin : Sized 131072 input) {oc pos : Nat}
    (hoc : oc < 512) (hpos : pos < 508) : Gives (convSum fa m input oc pos) fun _ => True := by
  apply (load_within h.convBias hoc).bind
  intro sum _
  apply forLoop_gives (fun _ => True) _ trivial
  intro ic sum hic _
  apply forLoop_gives (fun _ => True) _ trivial
  intro k sum hk _
  simp only [kReshapedDim, kKernelSize] at hic hk ⊢
  rw [u32_eq (by omega), u32_eq (by omega)]
  apply (hin.load (by omega)).bind
  intro x _
  apply (load_within h.convWeight
    (show (oc * 256 + ic) * 5 + k < 512 * 256 * 5 by omega)).bind
  intro weight _
  exact .some trivial

theorem conv1d_gives (h : Covers m) {input output : Array Word} (hin : Sized 131072 input)
    (hout : Sized 260096 output) :
    Gives (conv1d fa m input output kReshapedSeq) (Sized 260096) := by
  apply forLoop_gives (Sized 260096) _ hout
  intro oc output hoc hout
  apply forLoop_gives (Sized 260096) _ hout
  intro pos output hpos hout
  simp only [kConvOut, kReshapedSeq, kKernelSize, Nat.reduceSub, Nat.reduceAdd] at hoc hpos ⊢
  apply (convSum_gives fa h hin hoc hpos).bind
  intro sum _
  rw [u32_eq (by omega)]
  exact hout.store (by omega) _

theorem globalMaxPool_gives {input output : Array Word} (hin : Sized 260096 input)
    (hout : Sized 512 output) : Gives (globalMaxPool fa input output 508) (Sized 512) := by
  apply (forLoop_gives (Sized 512) (fun c output hc hout => hout.store hc _) hout).bind
  intro output hout
  apply forLoop_gives (Sized 512) _ hout
  intro s output hs hout
  apply forLoop_gives (Sized 512) _ hout
  intro c output hc hout
  simp only [kConvOut] at hc ⊢
  rw [u32_eq (by omega)]
  apply (hout.load hc).bind
  intro o _
  apply (hin.load (by omega)).bind
  intro x _
  exact hout.store hc _

theorem layerNorm1_gives (h : Covers m) {pooled : Array Word} (hp : Sized 512 pooled) :
    Gives (layerNorm1 fa m pooled) (Sized 512) := by
  have hsum : ∀ (f : Word → Word → Word) (start : Word), Gives (forLoop kConvOut (fun i sum => do
      let p ← load pooled i
      some (f sum p)) start) fun _ => True := by
    intro f start
    apply forLoop_gives (fun _ => True) _ trivial
    intro i sum hi _
    apply (hp.load hi).bind
    intro p _
    exact .some trivial
  apply (hsum fa.add (fa.ofNat 0)).bind
  intro sum _
  apply (hsum (fun var p => fa.add var (fa.mul (fa.sub p (fa.div sum (fa.ofNat kConvOut)))
    (fa.sub p (fa.div sum (fa.ofNat kConvOut))))) (fa.ofNat 0)).bind
  intro sum _
  apply forLoop_gives (Sized 512) _ hp
  intro i pooled hi hp
  apply (hp.load hi).bind
  intro p _
  apply (load_within h.ln1Scale hi).bind
  intro sc _
  apply (load_within h.ln1Bias hi).bind
  intro b _
  exact hp.store hi _

/-- The wrapped indices into the output weights are all indices below the number
of products, or all numbers of 32 bits. -/
theorem output_indices (n size : Nat) :
    (∀ i < kConvOut, ∀ c < n, u32 (i * n + c) < size) ↔ min (kConvOut * n) (2 ^ 32) ≤ size := by
  constructor
  · intro h
    by_contra hlt
    have hsize : size < kConvOut * n := by omega
    have hn : 0 < n := by
      rcases Nat.eq_zero_or_pos n with hz | hp
      · simp [hz] at hsize
      · exact hp
    have hdiv : size / n < kConvOut := Nat.div_lt_of_lt_mul (by rwa [Nat.mul_comm])
    have hidx := h (size / n) hdiv (size % n) (Nat.mod_lt size hn)
    rw [Nat.mul_comm, Nat.div_add_mod, u32_eq (by omega)] at hidx
    omega
  · intro h i hi c hc
    have hlt := feature_lt hi hc
    by_cases hbig : i * n + c < 2 ^ 32
    · rw [u32_eq hbig]
      omega
    · have := Nat.mod_lt (i * n + c) (show 0 < 2 ^ 32 by decide)
      unfold u32
      omega

theorem dense_gives (h : Covers m) {input output : Array Word} (hin : Sized 512 input)
    (hout : Sized m.numClasses_ output) :
    Gives (dense fa m input output) (Sized m.numClasses_) := by
  apply forLoop_gives (Sized m.numClasses_) _ hout
  intro c output hc hout
  apply (load_within h.outputBias hc).bind
  intro sum _
  have hinner : Gives (forLoop kConvOut (fun i sum => do
      let x ← load input i
      let weight ← load m.outputWeight_ (u32 (i * m.numClasses_ + c))
      some (fa.add sum (fa.mul x weight))) sum) fun _ => True := by
    apply forLoop_gives (fun _ => True) _ trivial
    intro i sum hi _
    apply (hin.load hi).bind
    intro x _
    apply (load_within le_rfl ((output_indices _ _).mpr h.outputWeight i hi c hc)).bind
    intro weight _
    exact .some trivial
  apply hinner.bind
  intro sum _
  exact hout.store hc _

theorem maxElement_gives {n : Nat} {data : Array Word} (h : Sized n data) (hn : 0 < n) :
    Gives (maxElement fa data n) (· < n) := by
  apply forLoop_gives (· < n) _ hn
  intro i best hi hbest
  apply (h.load hbest).bind
  intro largest _
  apply (h.load (show i + 1 < n by omega)).bind
  intro x _
  apply Gives.some
  split
  · omega
  · exact hbest

theorem softmax_gives {n : Nat} {data : Array Word} (h : Sized n data) (hn : 0 < n) :
    Gives (softmax fa data n) (Sized n) := by
  apply (maxElement_gives fa h hn).bind
  intro largest hlargest
  apply (h.load hlargest).bind
  intro maxVal _
  apply (forLoop_gives (fun r : Array Word × Word => Sized n r.1) _ h).bind
  · rintro ⟨data, sum⟩ hdata
    apply forLoop_gives (Sized n) _ hdata
    intro i data hi hdata
    apply (hdata.load hi).bind
    intro x _
    exact hdata.store hi _
  · rintro i ⟨data, sum⟩ hi hdata
    apply (hdata.load hi).bind
    intro x _
    apply (hdata.store hi _).bind
    intro data hdata
    apply (hdata.load hi).bind
    intro y _
    exact .some hdata

/-- A model of the sizes that the forward pass relies on classifies every payload. -/
theorem predict_gives (h : Covers m) (payload : Bytes) :
    Gives (predict fa m payload) fun _ => True := by
  have hclasses := h.classes
  apply (extractInputTokens_gives payload).bind
  intro tokens htokens
  apply (embedding_gives fa h htokens).bind
  intro embedded hembedded
  apply (gelu_gives fa hembedded).bind
  intro embedded hembedded
  have hreshaped : Sized (kReshapedSeq * kReshapedDim) embedded := hembedded
  apply (layerNorm_gives fa hreshaped (by decide) h.ln0Scale h.ln0Bias).bind
  intro embedded hembedded
  apply (conv1d_gives fa h hembedded (sized_replicate _)).bind
  intro convOut hconv
  apply (gelu_gives fa hconv).bind
  intro convOut hconv
  apply (globalMaxPool_gives fa hconv (sized_replicate _)).bind
  intro pooled hpooled
  apply (layerNorm1_gives fa h hpooled).bind
  intro pooled hpooled
  apply (dense_gives fa h hpooled (sized_replicate _)).bind
  intro logits hlogits
  apply (softmax_gives fa hlogits hclasses).bind
  intro logits hlogits
  rw [show logits.size = m.numClasses_ from hlogits]
  apply (maxElement_gives fa hlogits hclasses).bind
  intro idx hidx
  apply (hlogits.load hidx).bind
  intro confidence _
  exact .some trivial

theorem embedding_needs {out : Array Word}
    (h : embedding fa m (Array.replicate kInputLen kPaddingToken) = some out) :
    kVocabSize * kEmbedDim ≤ m.embedWeight_.size ∧ kEmbedDim ≤ m.embedBias_.size := by
  obtain ⟨_, _, hbody⟩ := forLoop_reaches h (show 0 < kInputLen by decide)
  obtain ⟨tok, htok, hinner⟩ := Option.bind_eq_some_iff.mp hbody
  have hpad : tok = kPaddingToken := by
    rw [load, Array.getElem?_replicate] at htok
    simpa [kInputLen, kBegSize, kEndSize, eq_comm] using htok
  subst hpad
  obtain ⟨_, _, hlast⟩ := forLoop_reaches hinner (show 63 < kEmbedDim by decide)
  obtain ⟨weight, hweight, hlast⟩ := Option.bind_eq_some_iff.mp hlast
  obtain ⟨bias, hbias, -⟩ := Option.bind_eq_some_iff.mp hlast
  have hw := load_lt hweight
  have hb := load_lt hbias
  rw [u32_eq (by decide)] at hw
  simp only [kPaddingToken, kVocabSize, kEmbedDim] at hw ⊢
  omega

theorem layerNorm_needs {data scale bias out : Array Word} {seqLen dim : Nat} (hdim : 0 < dim)
    (h : layerNorm fa data scale bias seqLen dim = some out) :
    seqLen ≤ scale.size ∧ seqLen ≤ bias.size := by
  obtain ⟨sums, -, h⟩ := Option.bind_eq_some_iff.mp h
  obtain ⟨scales, -, h⟩ := Option.bind_eq_some_iff.mp h
  by_cases hseq : seqLen = 0
  · omega
  obtain ⟨_, _, hbody⟩ := forLoop_reaches h (show seqLen - 1 < seqLen by omega)
  obtain ⟨_, _, hbody⟩ := forLoop_reaches hbody hdim
  obtain ⟨_, -, hbody⟩ := Option.bind_eq_some_iff.mp hbody
  obtain ⟨_, -, hbody⟩ := Option.bind_eq_some_iff.mp hbody
  obtain ⟨_, -, hbody⟩ := Option.bind_eq_some_iff.mp hbody
  obtain ⟨_, hscale, hbody⟩ := Option.bind_eq_some_iff.mp hbody
  obtain ⟨_, hbias, -⟩ := Option.bind_eq_some_iff.mp hbody
  have hs := load_lt hscale
  have hb := load_lt hbias
  omega

theorem conv1d_needs {input output out : Array Word}
    (h : conv1d fa m input output kReshapedSeq = some out) :
    kConvOut * kReshapedDim * kKernelSize ≤ m.convWeight_.size ∧ kConvOut ≤ m.convBias_.size := by
  obtain ⟨_, _, hbody⟩ := forLoop_reaches h (show 511 < kConvOut by simp [kConvOut])
  obtain ⟨_, _, hbody⟩ := forLoop_reaches hbody (show 0 < kReshapedSeq - kKernelSize + 1 by decide)
  obtain ⟨_, hsum, -⟩ := Option.bind_eq_some_iff.mp hbody
  obtain ⟨_, hbias, hsum⟩ := Option.bind_eq_some_iff.mp hsum
  obtain ⟨_, _, hbody⟩ := forLoop_reaches hsum (show 255 < kReshapedDim by decide)
  obtain ⟨_, _, hbody⟩ := forLoop_reaches hbody (show 4 < kKernelSize by decide)
  obtain ⟨_, -, hbody⟩ := Option.bind_eq_some_iff.mp hbody
  obtain ⟨_, hweight, -⟩ := Option.bind_eq_some_iff.mp hbody
  have hw := load_lt hweight
  have hb := load_lt hbias
  rw [u32_eq (by decide)] at hw
  simp only [kConvOut, kReshapedDim, kKernelSize] at hw ⊢
  omega

theorem layerNorm1_needs {pooled out : Array Word} (h : layerNorm1 fa m pooled = some out) :
    kConvOut ≤ m.ln1Scale_.size ∧ kConvOut ≤ m.ln1Bias_.size := by
  unfold layerNorm1 at h
  obtain ⟨_, -, h⟩ := Option.bind_eq_some_iff.mp h
  obtain ⟨_, -, h⟩ := Option.bind_eq_some_iff.mp h
  obtain ⟨_, _, hbody⟩ := forLoop_reaches h (show 511 < kConvOut by simp [kConvOut])
  obtain ⟨_, -, hbody⟩ := Option.bind_eq_some_iff.mp hbody
  obtain ⟨_, hscale, hbody⟩ := Option.bind_eq_some_iff.mp hbody
  obtain ⟨_, hbias, -⟩ := Option.bind_eq_some_iff.mp hbody
  have hs := load_lt hscale
  have hb := load_lt hbias
  unfold kConvOut
  omega

theorem dense_needs {input output out : Array Word} (h : dense fa m input output = some out) :
    min (kConvOut * m.numClasses_) (2 ^ 32) ≤ m.outputWeight_.size ∧
      m.numClasses_ ≤ m.outputBias_.size ∧ out.size = output.size := by
  refine ⟨(output_indices _ _).mp fun i hi c hc => ?_, ?_, ?_⟩
  · obtain ⟨_, _, hbody⟩ := forLoop_reaches h hc
    obtain ⟨_, -, hbody⟩ := Option.bind_eq_some_iff.mp hbody
    obtain ⟨_, hinner, -⟩ := Option.bind_eq_some_iff.mp hbody
    obtain ⟨_, _, hinner⟩ := forLoop_reaches hinner hi
    obtain ⟨_, -, hinner⟩ := Option.bind_eq_some_iff.mp hinner
    obtain ⟨_, hweight, -⟩ := Option.bind_eq_some_iff.mp hinner
    exact load_lt hweight
  · by_cases hn : m.numClasses_ = 0
    · omega
    obtain ⟨_, _, hbody⟩ := forLoop_reaches h (show m.numClasses_ - 1 < m.numClasses_ by omega)
    obtain ⟨_, hbias, -⟩ := Option.bind_eq_some_iff.mp hbody
    have hb := load_lt hbias
    omega
  · apply forLoop_kept (fun v => v.size = output.size) _ rfl h
    intro c s s' hs hbody
    obtain ⟨_, -, hbody⟩ := Option.bind_eq_some_iff.mp hbody
    obtain ⟨_, -, hstore⟩ := Option.bind_eq_some_iff.mp hbody
    exact (store_size hstore).trans hs

theorem softmax_needs {data out : Array Word} (h : softmax fa data data.size = some out) :
    1 ≤ data.size := by
  obtain ⟨largest, -, h⟩ := Option.bind_eq_some_iff.mp h
  obtain ⟨_, hload, -⟩ := Option.bind_eq_some_iff.mp h
  have hlt := load_lt hload
  omega

/-- The empty payload, which is all padding, already needs all of these sizes. -/
theorem predict_needs {p : Prediction} (h : predict fa m [] = some p) : Covers m := by
  have htokens : extractInputTokens [] = some (Array.replicate kInputLen kPaddingToken) := rfl
  rw [predict, htokens, Option.bind_eq_bind, Option.bind_some] at h
  obtain ⟨_, hembedding, h⟩ := Option.bind_eq_some_iff.mp h
  obtain ⟨_, -, h⟩ := Option.bind_eq_some_iff.mp h
  obtain ⟨_, hnorm, h⟩ := Option.bind_eq_some_iff.mp h
  obtain ⟨_, hconv, h⟩ := Option.bind_eq_some_iff.mp h
  obtain ⟨_, -, h⟩ := Option.bind_eq_some_iff.mp h
  obtain ⟨_, -, h⟩ := Option.bind_eq_some_iff.mp h
  obtain ⟨_, hnorm1, h⟩ := Option.bind_eq_some_iff.mp h
  obtain ⟨logits, hdense, h⟩ := Option.bind_eq_some_iff.mp h
  obtain ⟨_, hsoftmax, -⟩ := Option.bind_eq_some_iff.mp h
  obtain ⟨hew, heb⟩ := embedding_needs fa hembedding
  obtain ⟨hs0, hb0⟩ := layerNorm_needs fa (by simp [kReshapedDim]) hnorm
  obtain ⟨hcw, hcb⟩ := conv1d_needs fa hconv
  obtain ⟨hs1, hb1⟩ := layerNorm1_needs fa hnorm1
  obtain ⟨how, hob, hsize⟩ := dense_needs fa hdense
  rw [Array.size_replicate] at hsize
  rw [← hsize] at hsoftmax
  exact ⟨hew, heb, hs0, hb0, hcw, hcb, hs1, hb1, how, hob, hsize ▸ softmax_needs fa hsoftmax⟩

/-- The forward pass over a model that a file is accepted as stays inside of the
arrays for every payload exactly when they have the sizes of the architecture. -/
theorem accesses_inside_iff (file : Bytes) (m : MagikaModel) (h : loadFromFile file = .ok m) :
    (∀ payload, (predict fa m payload).isSome = true) ↔ Covers m := by
  constructor
  · intro hall
    obtain ⟨p, hp⟩ := Option.isSome_iff_exists.mp (hall [])
    exact predict_needs fa hp
  · intro hcovers payload
    obtain ⟨p, hp, -⟩ := predict_gives fa hcovers payload
    simp [hp]

/-- A little-endian `uint32_t`. -/
def encode32 (n : Nat) : Bytes :=
  [UInt8.ofNat n, UInt8.ofNat (n / 256), UInt8.ofNat (n / 65536), UInt8.ofNat (n / 16777216)]

/-- A tensor with one dimension, which is zero. -/
def emptyTensor (name : String) : Bytes :=
  encode32 (text name).length ++ text name ++ encode32 1 ++ encode32 0

/-- A file that has all of the required tensors, each of them empty, and no labels. -/
def emptyFile : Bytes :=
  text "DSMG" ++ encode32 1 ++ encode32 10 ++ emptyTensor "embed_weight" ++
    emptyTensor "embed_bias" ++ emptyTensor "ln0_scale" ++ emptyTensor "ln0_bias" ++
    emptyTensor "conv_weight" ++ emptyTensor "conv_bias" ++ emptyTensor "ln1_scale" ++
    emptyTensor "ln1_bias" ++ emptyTensor "output_weight" ++ emptyTensor "output_bias" ++
    encode32 0

def emptyModel : MagikaModel where
  embedWeight_ := #[]
  embedBias_ := #[]
  ln0Scale_ := #[]
  ln0Bias_ := #[]
  convWeight_ := #[]
  convBias_ := #[]
  ln1Scale_ := #[]
  ln1Bias_ := #[]
  outputWeight_ := #[]
  outputBias_ := #[]
  numClasses_ := 0
  labels_ := []

theorem emptyFile_loads : loadFromFile emptyFile = .ok emptyModel := by
  decide +kernel

theorem emptyModel_fails : predict fa emptyModel [] = none := by
  cases h : predict fa emptyModel [] with
  | none => rfl
  | some p => exact absurd (predict_needs fa h).classes (by decide)

theorem accesses_inside_empty :
    (∀ payload, (predict single emptyModel payload).isSome = true) ↔ Covers emptyModel :=
  accesses_inside_iff single emptyFile emptyModel emptyFile_loads

/-- A file of empty tensors is accepted, and the forward pass over it reads
outside of them. -/
theorem accepted_reads_outside :
    ¬ ∀ (file : Bytes) (m : MagikaModel), loadFromFile file = .ok m →
      ∀ payload, (predict single m payload).isSome = true := by
  intro h
  have hsome := h emptyFile emptyModel emptyFile_loads []
  rw [emptyModel_fails] at hsome
  exact absurd hsome (by decide)

end Magika
