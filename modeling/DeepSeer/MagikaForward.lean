import DeepSeer.MagikaNetwork

/-!
The forward pass computes the network: what each layer's loops leave in the
array, and the prediction of every payload.
-/
namespace Magika

open ByteMemory ByteText CountedLoops FilledArrays

variable (fa : FloatArith) {m : MagikaModel} {w : Tensors}

theorem embedding_holds (h : Represents m w) {tokens : Array Nat} {t : Nat → Nat}
    (ht : Holds kInputLen t tokens) (hmax : ∀ i, i < kInputLen → t i ≤ kPaddingToken) :
    Gives (embedding fa m tokens) (Flat kInputLen kEmbedDim (Network.embedding fa w t)) := by
  have hsize : u32 (kInputLen * kEmbedDim) = kInputLen * kEmbedDim := by decide
  unfold embedding
  rw [hsize]
  refine Gives.mono (forLoop_nested kEmbedDim (fun i d out => do
      let weight ← load m.embedWeight_ (u32 (t i * kEmbedDim + d))
      let bias ← load m.embedBias_ d
      store out (u32 (i * kEmbedDim + d)) (fa.add weight bias))
    (fun i d => i * kEmbedDim + d)
    (fun j => Network.embedding fa w t (j / kEmbedDim) (j % kEmbedDim))
    (holds_replicate (kInputLen * kEmbedDim) (0 : Word)) ?_ ?_ ?_) ?_
  · intro i d hi hd
    exact feature_lt hi hd
  · intro i out hi
    rw [ht.get hi]
    rfl
  · intro i d out hi hd _
    have hlt : i * kEmbedDim + d < kInputLen * kEmbedDim := feature_lt hi hd
    have hmost : kInputLen * kEmbedDim ≤ 2 ^ 32 := by decide
    rw [position_row hd, position_col hd, h.embedWeight (t i) d (hmax i hi) hd, h.embedBias d hd,
      u32_eq (by omega)]
    rfl
  · intro out hout
    exact Flat.of_loops hout fun i d hi hd => ⟨i, hi, d, hd, rfl⟩

theorem gelu_holds {n : Nat} {f : Nat → Word} {data : Array Word} (h : Holds n f data) :
    Gives (gelu fa data) (Holds n fun j => Network.gelu fa (f j)) := by
  unfold gelu
  rw [h.1]
  apply forLoop_map h
  intro i w hi hw
  rw [hw.head hi]
  rfl

section layerNorm

variable {rows cols : Nat} {x : Table} {data : Array Word}

/-- The sums that the features have behind the first `s` rows. -/
def Summed (rows cols : Nat) (x : Table) (sums : Array Word × Array Word) : Prop :=
  Holds cols (fun d => Network.total fa 0 rows fun s => x s d) sums.1 ∧
    Holds cols (fun d => Network.total fa 0 rows fun s => fa.mul (x s d) (x s d)) sums.2

/-- In the middle of row `s`, the features before `d` have their term of it. -/
def Summing (s cols : Nat) (x : Table) (d : Nat) (sums : Array Word × Array Word) : Prop :=
  Filled cols (· < d) (fun d => Network.total fa 0 (s + 1) fun s => x s d)
      (fun d => Network.total fa 0 s fun s => x s d) sums.1 ∧
    Filled cols (· < d) (fun d => Network.total fa 0 (s + 1) fun s => fa.mul (x s d) (x s d))
      (fun d => Network.total fa 0 s fun s => fa.mul (x s d) (x s d)) sums.2

theorem featureSums_holds (h : Flat rows cols x data) (hbound : rows * cols ≤ 2 ^ 32) :
    Gives (featureSums fa data rows cols) (Summed fa rows cols x) := by
  have hzero := holds_replicate cols (0 : Word)
  have hstart : Summed fa 0 cols x (Array.replicate cols 0, Array.replicate cols 0) :=
    ⟨hzero, hzero⟩
  refine forLoop_indexed (fun s => Summed fa s cols x) ?_ hstart
  rintro s ⟨mean, var⟩ hs ⟨hmean, hvar⟩
  have hrow : Summing fa s cols x 0 (mean, var) := ⟨hmean.begin _, hvar.begin _⟩
  refine Gives.mono (forLoop_indexed (Summing fa s cols x) ?_ hrow) ?_
  · rintro d ⟨mean, var⟩ hd ⟨hmean, hvar⟩
    have hlt := feature_lt hs hd
    have hmean' := hmean.next hd
    have hvar' := hvar.next hd
    have hm := hmean.head hd
    have hq := hvar.head hd
    rw [Network.total_succ] at hmean' hvar'
    dsimp only at hm hq hmean' hvar' ⊢
    rw [u32_eq (by omega), h.get hs hd, Option.bind_eq_bind, Option.bind_some, hm]
    apply hmean'.bind
    intro mean' hmean'
    rw [hq]
    apply hvar'.bind
    intro var' hvar'
    exact .some ⟨hmean', hvar'⟩
  · intro sums hsums
    exact ⟨hsums.1.full fun _ hd => hd, hsums.2.full fun _ hd => hd⟩

/-- Behind the features before `d`: their means, variances and inverse deviations. -/
def Scaling (rows cols : Nat) (x : Table) (d : Nat) (r : Array Word × Array Word × Array Word) :
    Prop :=
  Filled cols (· < d) (Network.mean fa rows x) (fun d => Network.total fa 0 rows fun s => x s d)
      r.1 ∧
    Filled cols (· < d) (Network.variance fa rows x)
      (fun d => Network.total fa 0 rows fun s => fa.mul (x s d) (x s d)) r.2.1 ∧
    Filled cols (· < d) (Network.invStd fa rows x) (fun _ => 0) r.2.2

theorem featureScales_holds {mean var : Array Word} (h : Summed fa rows cols x (mean, var)) :
    Gives (featureScales fa rows cols mean var) fun scales =>
      Holds cols (Network.mean fa rows x) scales.1 ∧
        Holds cols (Network.invStd fa rows x) scales.2 := by
  have hstart : Scaling fa rows cols x 0 (mean, var, Array.replicate cols 0) :=
    ⟨h.1.begin _, h.2.begin _, (holds_replicate cols 0).begin _⟩
  apply (forLoop_indexed (Scaling fa rows cols x) _ hstart).bind
  · rintro ⟨mean, var, invStd⟩ ⟨hmean, -, hinv⟩
    exact .some ⟨hmean.full fun _ hd => hd, hinv.full fun _ hd => hd⟩
  · rintro d ⟨mean, var, invStd⟩ hd ⟨hmean, hvar, hinv⟩
    have hm := hmean.head hd
    have hq := hvar.head hd
    dsimp only at hm hq ⊢
    rw [hm]
    apply (hmean.next hd).bind
    intro mean' hmean'
    rw [hmean'.written d hd (Nat.lt_succ_self d), Option.bind_eq_bind, Option.bind_some, hq]
    apply (hvar.next hd).bind
    intro var' hvar'
    rw [hvar'.written d hd (Nat.lt_succ_self d)]
    apply (hinv.next hd).bind
    intro invStd' hinv'
    exact .some ⟨hmean', hvar', hinv'⟩

theorem layerNorm_holds {scale bias : Array Word} {sc b : Nat → Word} (h : Flat rows cols x data)
    (hbound : rows * cols ≤ 2 ^ 32) (hscale : ∀ s, s < rows → load scale s = some (sc s))
    (hbias : ∀ s, s < rows → load bias s = some (b s)) :
    Gives (layerNorm fa data scale bias rows cols)
      (Flat rows cols (Network.layerNorm fa rows x sc b)) := by
  apply (featureSums_holds fa h hbound).bind
  rintro ⟨mean, var⟩ hsums
  apply (featureScales_holds fa hsums).bind
  rintro ⟨mean, invStd⟩ ⟨hmean, hinv⟩
  refine Gives.mono (forLoop_nested cols (fun s d data => do
      let v ← load data (u32 (s * cols + d))
      let m ← load mean d
      let inv ← load invStd d
      let sc ← load scale s
      let b ← load bias s
      store data (u32 (s * cols + d)) (fa.add (fa.mul (fa.mul (fa.sub v m) inv) sc) b))
    (fun s d => s * cols + d)
    (fun j => Network.layerNorm fa rows x sc b (j / cols) (j % cols))
    h (fun _ _ => feature_lt) (fun _ _ _ => rfl) ?_) ?_
  · intro s d w hs hd hw
    have hlt := feature_lt hs hd
    -- a pass reads its own position, which no pass before it has written
    have hown : load w (s * cols + d) = some (x s d) := by
      have hkept := hw.kept (s * cols + d) hlt ?_
      · rwa [position_row hd, position_col hd] at hkept
      · rintro (⟨k, hk, e, he, heq⟩ | ⟨e, he, heq⟩)
        · have := (position_injective hd he heq).1
          omega
        · omega
    rw [u32_eq (by omega), hown, hmean.get hd, hinv.get hd, hscale s hs, hbias s hs,
      position_row hd, position_col hd]
    rfl
  · intro w hw
    exact Flat.of_loops hw fun s d hs hd => ⟨s, hs, d, hd, rfl⟩

end layerNorm

theorem convSum_eq (h : Represents m w) {x : Table} {input : Array Word}
    (hin : Flat kReshapedSeq kReshapedDim x input) {oc pos : Nat} (hoc : oc < kConvOut)
    (hpos : pos < 508) : convSum fa m input oc pos = some (Network.conv1d fa w x pos oc) := by
  unfold convSum
  rw [h.convBias oc hoc]
  apply forLoop_fold fun sum ic => Network.total fa sum kKernelSize fun k =>
    fa.mul (x (pos + k) ic) (w.convWeight oc ic k)
  intro ic sum hic
  apply forLoop_fold fun sum k => fa.add sum (fa.mul (x (pos + k) ic) (w.convWeight oc ic k))
  intro k sum hk
  have hrow : pos + k < kReshapedSeq := by
    unfold kReshapedSeq kKernelSize at *
    omega
  have hlt : (pos + k) * kReshapedDim + ic < kReshapedSeq * kReshapedDim := feature_lt hrow hic
  have hmost : kReshapedSeq * kReshapedDim ≤ 2 ^ 32 := by decide
  rw [h.convWeight oc ic k hoc hic hk, u32_eq (by omega), hin.get hrow hic]
  rfl

theorem conv1d_holds (h : Represents m w) {x : Table} {input output : Array Word} {f : Nat → Word}
    (hin : Flat kReshapedSeq kReshapedDim x input) (hout : Holds (508 * kConvOut) f output) :
    Gives (conv1d fa m input output kReshapedSeq) (Flat 508 kConvOut (Network.conv1d fa w x)) := by
  refine Gives.mono (forLoop_nested 508 (fun oc pos output => do
      let sum ← convSum fa m input oc pos
      store output (u32 (pos * kConvOut + oc)) sum)
    (fun oc pos => pos * kConvOut + oc)
    (fun j => Network.conv1d fa w x (j / kConvOut) (j % kConvOut))
    hout ?_ (fun _ _ _ => rfl) ?_) ?_
  · intro oc pos hoc hpos
    exact feature_lt hpos hoc
  · intro oc pos w hoc hpos _
    have hlt := feature_lt hpos hoc
    rw [convSum_eq fa h hin hoc hpos, position_row hoc, position_col hoc,
      u32_eq (by unfold kConvOut at *; omega)]
    rfl
  · intro w hw
    exact Flat.of_loops hw fun pos oc hpos hoc => ⟨oc, hoc, pos, hpos, rfl⟩

theorem globalMaxPool_holds {rows : Nat} {x : Table} {input output : Array Word} {f : Nat → Word}
    (hin : Flat rows kConvOut x input) (hbound : rows * kConvOut ≤ 2 ^ 32)
    (hout : Holds kConvOut f output) :
    Gives (globalMaxPool fa input output rows)
      (Holds kConvOut (Network.globalMaxPool fa rows x)) := by
  have hfirst : Gives (forLoop kConvOut (fun c output => store output c fa.minusInfinity) output)
      (Holds kConvOut (Network.globalMaxPool fa 0 x)) :=
    forLoop_map hout fun _ _ _ _ => rfl
  apply hfirst.bind
  intro output hout
  apply forLoop_indexed (fun s => Holds kConvOut (Network.globalMaxPool fa s x)) _ hout
  intro s output hs hout
  apply forLoop_map hout
  intro c w hc hw
  have hlt := feature_lt hs hc
  have hstep : Network.globalMaxPool fa (s + 1) x c =
      fa.max (Network.globalMaxPool fa s x c) (x s c) := by
    simp [Network.globalMaxPool, List.range_succ]
  rw [hw.head hc, u32_eq (by omega), hin.get hs hc, hstep]
  rfl

theorem layerNorm1_holds (h : Represents m w) {x : Nat → Word} {pooled : Array Word}
    (hp : Holds kConvOut x pooled) :
    Gives (layerNorm1 fa m pooled) (Holds kConvOut (Network.layerNorm1 fa w x)) := by
  have hmean : forLoop kConvOut (fun i mean => do
      let p ← load pooled i
      some (fa.add mean p)) (fa.ofNat 0) = some (Network.total fa (fa.ofNat 0) kConvOut x) := by
    apply forLoop_fold fun sum i => fa.add sum (x i)
    intro i sum hi
    rw [hp.get hi]
    rfl
  have hvar : forLoop kConvOut (fun i var => do
      let p ← load pooled i
      let diff := fa.sub p (Network.mean1 fa x)
      some (fa.add var (fa.mul diff diff))) (fa.ofNat 0) =
        some (Network.total fa (fa.ofNat 0) kConvOut fun i =>
          fa.mul (fa.sub (x i) (Network.mean1 fa x)) (fa.sub (x i) (Network.mean1 fa x))) := by
    apply forLoop_fold fun sum i => fa.add sum
      (fa.mul (fa.sub (x i) (Network.mean1 fa x)) (fa.sub (x i) (Network.mean1 fa x)))
    intro i sum hi
    rw [hp.get hi]
    rfl
  unfold layerNorm1
  rw [hmean, Option.bind_eq_bind, Option.bind_some]
  change Gives (Option.bind (forLoop kConvOut (fun i var => do
      let p ← load pooled i
      let diff := fa.sub p (Network.mean1 fa x)
      some (fa.add var (fa.mul diff diff))) (fa.ofNat 0)) _) _
  rw [hvar, Option.bind_some]
  apply forLoop_map hp
  intro i w hi hw
  rw [hw.head hi, h.ln1Scale i hi, h.ln1Bias i hi]
  rfl

theorem dense_holds (h : Represents m w) {x f : Nat → Word} {input output : Array Word}
    (hin : Holds kConvOut x input) (hout : Holds m.numClasses_ f output) :
    Gives (dense fa m input output) (Holds m.numClasses_ (Network.dense fa w x)) := by
  apply forLoop_map hout
  intro c v hc _
  have hsum : forLoop kConvOut (fun i sum => do
      let x ← load input i
      let weight ← load m.outputWeight_ (u32 (i * m.numClasses_ + c))
      some (fa.add sum (fa.mul x weight))) (w.outputBias c) =
        some (Network.dense fa w x c) := by
    apply forLoop_fold fun sum i => fa.add sum
      (fa.mul (x i) (w.outputWeight i c))
    intro i sum hi
    rw [hin.get hi, h.outputWeight i c hi hc]
    rfl
  rw [h.outputBias c hc, Option.bind_eq_bind, Option.bind_some, hsum]
  rfl

theorem maxElement_eq {n : Nat} {f : Nat → Word} {data : Array Word} (h : Holds n f data)
    (hn : 0 < n) : maxElement fa data n = some (Network.argmax fa n f) := by
  have hloop : Gives (maxElement fa data n) (fun best => best = Network.argmax fa n f) := by
    apply forLoop_indexed (fun i best => best =
      (List.range i).foldl (fun best i => if fa.less (f best) (f (i + 1)) then i + 1 else best) 0)
      _ rfl
    intro i best hi hbest
    have hle := Network.argmax_le fa i f
    rw [← hbest] at hle
    rw [h.get (show best < n by omega), h.get (show i + 1 < n by omega)]
    refine .some ?_
    rw [List.range_succ, List.foldl_append, ← hbest]
    rfl
  obtain ⟨best, hbest, he⟩ := hloop
  rw [hbest, he]

theorem softmax_holds {n : Nat} {f : Nat → Word} {data : Array Word} (h : Holds n f data)
    (hn : 0 < n) : Gives (softmax fa data n) (Holds n (Network.softmax fa n f)) := by
  unfold softmax
  rw [maxElement_eq fa h hn, Option.bind_eq_bind, Option.bind_some,
    h.get (Network.argmax_lt fa hn f), Option.bind_eq_bind, Option.bind_some]
  have hfirst : Gives (forLoop n (fun i (r : Array Word × Word) => do
      let x ← load r.1 i
      let data ← store r.1 i (fa.exp (fa.sub x (f (Network.argmax fa n f))))
      let y ← load data i
      some (data, fa.add r.2 y)) (data, fa.ofNat 0)) fun r =>
        Filled n (· < n) (Network.expo fa n f) f r.1 ∧
          r.2 = Network.total fa (fa.ofNat 0) n (Network.expo fa n f) := by
    apply forLoop_indexed (fun i (r : Array Word × Word) =>
      Filled n (· < i) (Network.expo fa n f) f r.1 ∧
        r.2 = Network.total fa (fa.ofNat 0) i (Network.expo fa n f)) _ ⟨h.begin _, rfl⟩
    rintro i ⟨data, sum⟩ hi ⟨hdata, hsum⟩
    have hx := hdata.head hi
    dsimp only at hsum hx ⊢
    rw [hx]
    apply (hdata.next hi).bind
    intro data' hdata'
    rw [hdata'.written i hi (Nat.lt_succ_self i)]
    exact .some ⟨hdata', by rw [Network.total_succ, hsum]⟩
  apply hfirst.bind
  rintro ⟨data, sum⟩ ⟨hdata, hsum⟩
  have hexpo : Holds n (Network.expo fa n f) data := hdata.full fun _ hj => hj
  dsimp only at hsum ⊢
  rw [hsum]
  apply forLoop_map hexpo
  intro i w hi hw
  rw [hw.head hi]
  rfl

theorem preprocess_holds (payload : Bytes) : Gives (extractInputTokens payload)
    (Holds kInputLen fun i => (preprocess payload).getD i 0) := by
  apply (extractInputTokens_toList payload).mono
  intro tokens htokens
  have hlength := preprocess_length payload
  refine ⟨by rw [← Array.length_toList, htokens, hlength], ?_⟩
  intro j hj
  have hin : j < (preprocess payload).length := by omega
  change load tokens j = some ((preprocess payload).getD j 0)
  rw [load, ← Array.getElem?_toList, htokens, List.getD_eq_getElem?_getD,
    List.getElem?_eq_getElem hin]
  rfl

theorem preprocess_le (payload : Bytes) (i : Nat) :
    (preprocess payload).getD i 0 ≤ kPaddingToken := by
  rw [List.getD_eq_getElem?_getD]
  by_cases hin : i < (preprocess payload).length
  · rw [List.getElem?_eq_getElem hin]
    exact mem_preprocess (List.getElem_mem hin)
  · rw [List.getElem?_eq_none (by omega)]
    exact Nat.zero_le _

/-- The forward pass is the network of the tensors that the arrays represent. -/
theorem Represents.predict (h : Represents m w) (payload : Bytes) :
    Magika.predict fa m payload = some (Network.prediction fa w payload) := by
  have hclasses := h.classes
  have hpredict : Gives (Magika.predict fa m payload) (· = Network.prediction fa w payload) := by
    apply (preprocess_holds payload).bind
    intro tokens htokens
    apply (embedding_holds fa h htokens fun i _ => preprocess_le payload i).bind
    intro embedded hembedded
    apply (gelu_holds fa hembedded).bind
    intro embedded hembedded
    have htable : Flat kInputLen kEmbedDim
      (fun i d => Network.gelu fa (Network.embedding fa w _ i d)) embedded := hembedded
    have hreshaped : Flat kReshapedSeq kReshapedDim _ embedded := htable.reshaped (by decide)
    apply (layerNorm_holds fa hreshaped (by decide) h.ln0Scale h.ln0Bias).bind
    intro embedded hembedded
    apply (conv1d_holds fa h hembedded (holds_replicate _ 0)).bind
    intro convOut hconv
    apply (gelu_holds fa hconv).bind
    intro convOut hconv
    have hconv : Flat 508 kConvOut (fun pos oc => Network.gelu fa (Network.conv1d fa w _ pos oc))
      convOut := hconv
    apply (globalMaxPool_holds fa hconv (by decide) (holds_replicate kConvOut 0)).bind
    intro pooled hpooled
    apply (layerNorm1_holds fa h hpooled).bind
    intro pooled hpooled
    apply (dense_holds fa h hpooled (holds_replicate _ 0)).bind
    intro logits hlogits
    apply (softmax_holds fa hlogits hclasses).bind
    intro logits hlogits
    rw [hlogits.1, maxElement_eq fa hlogits hclasses, Option.bind_eq_bind, Option.bind_some,
      hlogits.get (Network.argmax_lt fa hclasses _)]
    refine .some ?_
    simp only [Network.prediction, Network.classOf, Network.probabilities, h.numClasses, h.labels]
    rfl
  obtain ⟨p, hp, he⟩ := hpredict
  rw [hp, he]

/-- The forward pass of a model whose arrays suffice is the network, for whatever
the arithmetic is and for every payload. -/
theorem predict_network (h : Covers m) (payload : Bytes) :
    predict fa m payload = some (Network.prediction fa m.tensors payload) :=
  h.represents.predict fa payload

/-- A model of two classes with weights that are all zero. -/
def blankModel : MagikaModel where
  embedWeight_ := Array.replicate 16448 0
  embedBias_ := Array.replicate 64 0
  ln0Scale_ := Array.replicate 512 0
  ln0Bias_ := Array.replicate 512 0
  convWeight_ := Array.replicate 655360 0
  convBias_ := Array.replicate 512 0
  ln1Scale_ := Array.replicate 512 0
  ln1Bias_ := Array.replicate 512 0
  outputWeight_ := Array.replicate 1024 0
  outputBias_ := Array.replicate 2 0
  numClasses_ := 2
  labels_ := [[0x61], [0x62]]

theorem blankModel_covers : Covers blankModel := by
  constructor <;> simp [blankModel, kVocabSize, kEmbedDim, kReshapedSeq, kConvOut, kReshapedDim,
    kKernelSize]

theorem predict_network_blank :
    predict single blankModel [0x41] = some (Network.prediction single blankModel.tensors [0x41]) :=
  predict_network single blankModel_covers [0x41]

end Magika
