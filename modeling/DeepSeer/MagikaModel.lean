import DeepSeer.ByteText
import DeepSeer.CountedLoops
import Mathlib.Algebra.Group.Nat.Defs

/-!
The weight file of the content-type model and the forward pass over it. A float
is its bit pattern and its arithmetic a parameter, since only the sizes of the
arrays matter here. Index arithmetic is that of `uint32_t`; the forward pass has
no result where an access is outside of its array. Memory is taken to suffice
for what a file asks for.
-/
namespace Magika

open ByteMemory ByteText CountedLoops

/-- The bits of a `float`. -/
abbrev Word := UInt32

/-- The arithmetic and the constants of `float`. -/
structure FloatArith where
  add : Word → Word → Word
  sub : Word → Word → Word
  mul : Word → Word → Word
  div : Word → Word → Word
  less : Word → Word → Bool
  sqrt : Word → Word
  tanh : Word → Word
  exp : Word → Word
  ofNat : Nat → Word
  kSqrt2OverPi : Word
  cubic : Word
  half : Word
  kLnEps : Word
  minusInfinity : Word

/-- The arithmetic of single precision. -/
def single : FloatArith where
  add a b := (Float32.ofBits a + Float32.ofBits b).toBits
  sub a b := (Float32.ofBits a - Float32.ofBits b).toBits
  mul a b := (Float32.ofBits a * Float32.ofBits b).toBits
  div a b := (Float32.ofBits a / Float32.ofBits b).toBits
  less a b := decide (Float32.ofBits a < Float32.ofBits b)
  sqrt a := (Float32.ofBits a).sqrt.toBits
  tanh a := (Float32.ofBits a).tanh.toBits
  exp a := (Float32.ofBits a).exp.toBits
  ofNat n := (Float32.ofNat n).toBits
  kSqrt2OverPi := (0.7978845608 : Float32).toBits
  cubic := (0.044715 : Float32).toBits
  half := (0.5 : Float32).toBits
  kLnEps := (1e-6 : Float32).toBits
  minusInfinity := (-1 / 0 : Float32).toBits

/-- `std::max`. -/
def FloatArith.max (fa : FloatArith) (a b : Word) : Word := if fa.less a b then b else a

def u32 (n : Nat) : Nat := n % 2 ^ 32

/-- A binary input stream. A read that finds too little takes what there is and
leaves the stream failed; a failed stream reads nothing. -/
structure InputFile where
  rest : Bytes
  good : Bool := true

namespace InputFile

def read (f : InputFile) (n : Nat) : Bytes × InputFile :=
  if f.good = false then ([], f)
  else if n ≤ f.rest.length then (f.rest.take n, { f with rest := f.rest.drop n })
  else (f.rest, { rest := [], good := false })

/-- A little-endian number. -/
def number : Bytes → Nat
  | [] => 0
  | b :: rest => b.toNat + 256 * number rest

/-- `readVal` into a `uint32_t` that is zero before. Its result is whether the
stream is still good. -/
def readVal (f : InputFile) : Nat × InputFile :=
  let (bytes, f) := f.read 4
  (number bytes, f)

/-- `readString`; there is no result where it returns false. -/
def readString (f : InputFile) : Option (Bytes × InputFile) :=
  let (len, f) := f.readVal
  if f.good then
    let (out, f) := f.read len
    if f.good then some (out, f) else none
  else none

/-- Blocks of four bytes as the words of a vector. -/
def words : Bytes → List Word
  | a :: b :: c :: d :: rest => UInt32.ofNat (number [a, b, c, d]) :: words rest
  | _ => []

/-- `readFloats`; there is no result where it returns false. -/
def readFloats (f : InputFile) (count : Nat) : Option (Array Word × InputFile) :=
  let (bytes, f) := f.read (4 * count)
  if f.good then some ((words bytes).toArray, f) else none

/-- The dimensions of a tensor, whose reads are not checked. -/
def readShape (f : InputFile) : Nat → List Nat × InputFile
  | 0 => ([], f)
  | numDims + 1 =>
    let (d, f) := f.readVal
    let (shape, f) := f.readShape numDims
    (d :: shape, f)

end InputFile

structure TensorData where
  shape : List Nat
  data : Array Word

/-- How a load fails: with a message, or with the exception of a vector that is
asked for more elements than it can have. -/
inductive LoadError where
  | message (text : Bytes)
  | lengthError
  deriving DecidableEq, Repr

/-- The number of elements that a `std::vector<float>` can have. -/
def maxSize : Nat := 2 ^ 61 - 1

/-- The product of the dimensions as a `size_t`. -/
def elementCount (shape : List Nat) : Nat := shape.foldl (fun count d => count * d % 2 ^ 64) 1

def readTensor (f : InputFile) : Except LoadError ((Bytes × TensorData) × InputFile) :=
  match f.readString with
  | none => .error (.message (text "Failed reading tensor name"))
  | some (name, f) =>
    let (numDims, f) := f.readVal
    let (shape, f) := f.readShape numDims
    let count := elementCount shape
    if maxSize < count then .error .lengthError
    else
      match f.readFloats count with
      | none => .error (.message (text "Failed reading tensor data for: " ++ name))
      | some (data, f) => .ok ((name, { shape := shape, data := data }), f)

/-- The tensors by name, the latest of a name first. -/
def readTensors (f : InputFile) (tensors : List (Bytes × TensorData)) :
    Nat → Except LoadError (List (Bytes × TensorData) × InputFile)
  | 0 => .ok (tensors, f)
  | remaining + 1 => do
    let (tensor, f) ← readTensor f
    readTensors f (tensor :: tensors) remaining

def readLabels (f : InputFile) : Nat → Except LoadError (List Bytes × InputFile)
  | 0 => .ok ([], f)
  | remaining + 1 =>
    match f.readString with
    | none => .error (.message (text "Failed reading label"))
    | some (label, f) => do
      let (labels, f) ← readLabels f remaining
      .ok (label :: labels, f)

structure MagikaModel where
  embedWeight_ : Array Word
  embedBias_ : Array Word
  ln0Scale_ : Array Word
  ln0Bias_ : Array Word
  convWeight_ : Array Word
  convBias_ : Array Word
  ln1Scale_ : Array Word
  ln1Bias_ : Array Word
  outputWeight_ : Array Word
  outputBias_ : Array Word
  numClasses_ : Nat
  labels_ : List Bytes
  deriving DecidableEq

/-- The required tensors of a file, or none where one is missing. -/
def assemble (tensors : List (Bytes × TensorData)) (numLabels : Nat) (labels : List Bytes) :
    Option MagikaModel := do
  let get (name : String) : Option (Array Word) :=
    (tensors.lookup (text name)).map TensorData.data
  some {
    embedWeight_ := ← get "embed_weight"
    embedBias_ := ← get "embed_bias"
    ln0Scale_ := ← get "ln0_scale"
    ln0Bias_ := ← get "ln0_bias"
    convWeight_ := ← get "conv_weight"
    convBias_ := ← get "conv_bias"
    ln1Scale_ := ← get "ln1_scale"
    ln1Bias_ := ← get "ln1_bias"
    outputWeight_ := ← get "output_weight"
    outputBias_ := ← get "output_bias"
    numClasses_ := numLabels
    labels_ := labels }

/-- What `loadFromFile` does behind the version. -/
def loadTensors (f : InputFile) : Except LoadError MagikaModel := do
  let (numTensors, f) := f.readVal
  let (tensors, f) ← readTensors f [] numTensors
  let (numLabels, f) := f.readVal
  let (labels, _) ← readLabels f numLabels
  match assemble tensors numLabels labels with
  | none => throw (.message (text "Missing required tensors in model file"))
  | some model => .ok model

/-- `loadFromFile` on the bytes of a file that opens. The four bytes for the magic
number have no initial value; `before` is what they happen to be. -/
def loadOver (before file : Bytes) : Except LoadError MagikaModel := do
  let f : InputFile := { rest := file }
  let (start, f) := f.read 4
  let magic := (start ++ before.drop start.length).take 4
  if magic ≠ text "DSMG" then throw (.message (text "Invalid magic in model file"))
  let (version, f) := f.readVal
  if version ≠ 1 then
    throw (.message (text "Unsupported model version: " ++ decimal version))
  loadTensors f

/-- `loadFromFile` where nothing in the place of the magic number could pass for a
part of it. -/
def loadFromFile (file : Bytes) : Except LoadError MagikaModel := loadOver [] file

def kBegSize : Nat := 1024
def kEndSize : Nat := 1024
def kInputLen : Nat := kBegSize + kEndSize
def kVocabSize : Nat := 257
def kPaddingToken : Nat := 256
def kEmbedDim : Nat := 64
def kReshapedSeq : Nat := 512
def kReshapedDim : Nat := 256
def kConvOut : Nat := 512
def kKernelSize : Nat := 5

def isWhitespace (b : UInt8) : Bool :=
  b == 0x09 || b == 0x0a || b == 0x0b || b == 0x0c || b == 0x0d || b == 0x20

def extractInputTokens (payload : Bytes) : Option (Array Nat) :=
  let tokens := Array.replicate kInputLen kPaddingToken
  if payload = [] then some tokens
  else do
    let begStart := (payload.takeWhile isWhitespace).length
    let begCount := min kBegSize (payload.length - begStart)
    let tokens ← forLoop begCount (fun i tokens => do
      let b ← load payload.toArray (begStart + i)
      store tokens i b.toNat) tokens
    let endPos := payload.length - (payload.reverse.takeWhile isWhitespace).length
    let endCount := min kEndSize endPos
    let endOffset := kBegSize + (kEndSize - endCount)
    let endStart := endPos - endCount
    forLoop endCount (fun i tokens => do
      let b ← load payload.toArray (endStart + i)
      store tokens (endOffset + i) b.toNat) tokens

variable (fa : FloatArith)

def embedding (m : MagikaModel) (tokens : Array Nat) : Option (Array Word) :=
  forLoop kInputLen (fun i out => do
    let tok ← load tokens i
    forLoop kEmbedDim (fun d out => do
      let weight ← load m.embedWeight_ (u32 (tok * kEmbedDim + d))
      let bias ← load m.embedBias_ d
      store out (u32 (i * kEmbedDim + d)) (fa.add weight bias)) out)
    (Array.replicate (u32 (kInputLen * kEmbedDim)) 0)

def gelu (data : Array Word) : Option (Array Word) :=
  forLoop data.size (fun i data => do
    let x ← load data i
    let inner := fa.mul fa.kSqrt2OverPi
      (fa.add x (fa.mul (fa.mul (fa.mul fa.cubic x) x) x))
    store data i (fa.mul (fa.mul fa.half x) (fa.add (fa.ofNat 1) (fa.tanh inner)))) data

/-- The sums over the sequence of each feature and of its square. -/
def featureSums (data : Array Word) (seqLen dim : Nat) : Option (Array Word × Array Word) :=
  forLoop seqLen (fun s sums => forLoop dim (fun d (mean, var) => do
    let v ← load data (u32 (s * dim + d))
    let m ← load mean d
    let mean ← store mean d (fa.add m v)
    let q ← load var d
    let var ← store var d (fa.add q (fa.mul v v))
    some (mean, var)) sums) (Array.replicate dim 0, Array.replicate dim 0)

/-- The means, and the inverses of the standard deviations. -/
def featureScales (seqLen dim : Nat) (mean var : Array Word) : Option (Array Word × Array Word) := do
  let invSeq := fa.div (fa.ofNat 1) (fa.ofNat seqLen)
  let (mean, _, invStd) ← forLoop dim (fun d (mean, var, invStd) => do
    let m ← load mean d
    let mean ← store mean d (fa.mul m invSeq)
    let m ← load mean d
    let q ← load var d
    let var ← store var d (fa.max (fa.ofNat 0) (fa.sub (fa.mul q invSeq) (fa.mul m m)))
    let q ← load var d
    let invStd ← store invStd d (fa.div (fa.ofNat 1) (fa.sqrt (fa.add q fa.kLnEps)))
    some (mean, var, invStd)) (mean, var, Array.replicate dim 0)
  some (mean, invStd)

def layerNorm (data scale bias : Array Word) (seqLen dim : Nat) : Option (Array Word) := do
  let (mean, var) ← featureSums fa data seqLen dim
  let (mean, invStd) ← featureScales fa seqLen dim mean var
  forLoop seqLen (fun s data => forLoop dim (fun d data => do
    let v ← load data (u32 (s * dim + d))
    let m ← load mean d
    let inv ← load invStd d
    let sc ← load scale s
    let b ← load bias s
    store data (u32 (s * dim + d)) (fa.add (fa.mul (fa.mul (fa.sub v m) inv) sc) b)) data) data

/-- One output value of the convolution. -/
def convSum (m : MagikaModel) (input : Array Word) (oc pos : Nat) : Option Word := do
  let sum ← load m.convBias_ oc
  forLoop kReshapedDim (fun ic sum => forLoop kKernelSize (fun k sum => do
    let x ← load input (u32 ((pos + k) * kReshapedDim + ic))
    let weight ← load m.convWeight_ (u32 ((oc * kReshapedDim + ic) * kKernelSize + k))
    some (fa.add sum (fa.mul x weight))) sum) sum

def conv1d (m : MagikaModel) (input output : Array Word) (seqLen : Nat) : Option (Array Word) :=
  let outLen := seqLen - kKernelSize + 1
  forLoop kConvOut (fun oc output => forLoop outLen (fun pos output => do
    let sum ← convSum fa m input oc pos
    store output (u32 (pos * kConvOut + oc)) sum) output) output

def globalMaxPool (input output : Array Word) (seqLen : Nat) : Option (Array Word) := do
  let output ← forLoop kConvOut (fun c output => store output c fa.minusInfinity) output
  forLoop seqLen (fun s output => forLoop kConvOut (fun c output => do
    let o ← load output c
    let x ← load input (u32 (s * kConvOut + c))
    store output c (fa.max o x)) output) output

/-- The normalization of the pooled vector. -/
def layerNorm1 (m : MagikaModel) (pooled : Array Word) : Option (Array Word) := do
  let sum ← forLoop kConvOut (fun i mean => do
    let p ← load pooled i
    some (fa.add mean p)) (fa.ofNat 0)
  let mean := fa.div sum (fa.ofNat kConvOut)
  let sum ← forLoop kConvOut (fun i var => do
    let p ← load pooled i
    let diff := fa.sub p mean
    some (fa.add var (fa.mul diff diff))) (fa.ofNat 0)
  let var := fa.div sum (fa.ofNat kConvOut)
  let invStd := fa.div (fa.ofNat 1) (fa.sqrt (fa.add var fa.kLnEps))
  forLoop kConvOut (fun i pooled => do
    let p ← load pooled i
    let sc ← load m.ln1Scale_ i
    let b ← load m.ln1Bias_ i
    store pooled i (fa.add (fa.mul (fa.mul (fa.sub p mean) invStd) sc) b)) pooled

def dense (m : MagikaModel) (input output : Array Word) : Option (Array Word) :=
  forLoop m.numClasses_ (fun c output => do
    let sum ← load m.outputBias_ c
    let sum ← forLoop kConvOut (fun i sum => do
      let x ← load input i
      let weight ← load m.outputWeight_ (u32 (i * m.numClasses_ + c))
      some (fa.add sum (fa.mul x weight))) sum
    store output c sum) output

/-- `std::max_element` on the first `n` elements, as a position. On an empty
range it is the end of the range. -/
def maxElement (data : Array Word) (n : Nat) : Option Nat :=
  forLoop (n - 1) (fun i best => do
    let largest ← load data best
    let x ← load data (i + 1)
    some (if fa.less largest x then i + 1 else best)) 0

def softmax (data : Array Word) (n : Nat) : Option (Array Word) := do
  let maxVal ← load data (← maxElement fa data n)
  let (data, sum) ← forLoop n (fun i (data, sum) => do
    let x ← load data i
    let data ← store data i (fa.exp (fa.sub x maxVal))
    let y ← load data i
    some (data, fa.add sum y)) (data, fa.ofNat 0)
  forLoop n (fun i data => do
    let x ← load data i
    store data i (fa.div x sum)) data

structure Prediction where
  classIndex : Nat
  confidence : Word
  label : Bytes

def predict (m : MagikaModel) (payload : Bytes) : Option Prediction := do
  let tokens ← extractInputTokens payload
  let embedded ← embedding fa m tokens
  let embedded ← gelu fa embedded
  let embedded ← layerNorm fa embedded m.ln0Scale_ m.ln0Bias_ kReshapedSeq kReshapedDim
  let convOutLen := kReshapedSeq - kKernelSize + 1
  let convOut ← conv1d fa m embedded (Array.replicate (u32 (convOutLen * kConvOut)) 0) kReshapedSeq
  let convOut ← gelu fa convOut
  let pooled ← globalMaxPool fa convOut (Array.replicate kConvOut 0) convOutLen
  let pooled ← layerNorm1 fa m pooled
  let logits ← dense fa m pooled (Array.replicate m.numClasses_ 0)
  let logits ← softmax fa logits m.numClasses_
  let idx ← maxElement fa logits logits.size
  let confidence ← load logits idx
  some {
    classIndex := u32 idx, confidence := confidence
    label := if u32 idx < m.labels_.length then m.labels_.getD (u32 idx) [] else text "unknown" }

end Magika
