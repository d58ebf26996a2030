import DeepSeer.Codec

/-!
Codec objects in memory. The parser in a codec points to the settings through which it
makes its callbacks and to the object that the callbacks act on, and a move or a swap
copies the parser with its pointers.
-/
namespace DeepSeer

open ByteMemory

/-- Which of `callbacks_` are set. -/
structure CodecCallbacks where
  onRequest : Bool := false
  onResponse : Bool := false
  onBody : Bool := false
  onMessageComplete : Bool := false
  deriving DecidableEq, Repr

def CodecCallbacks.takes (cbs : CodecCallbacks) : Emission → Bool
  | .request _ => cbs.onRequest
  | .response _ => cbs.onResponse
  | .body _ _ => cbs.onBody
  | .messageComplete => cbs.onMessageComplete

/-- A codec, with the objects that `parser_.data` and `parser_.settings` lead to, and
whether its own `settings_` have the callbacks of the class. `id` tells it from every
other codec, and a move takes it along. -/
structure CodecObject where
  codec : Http1Codec
  data : Nat
  settings : Nat
  settings_ : Bool := true
  callbacks_ : CodecCallbacks := {}
  id : Nat

/-- What a move leaves in the members that are moved from, of which nothing is promised. -/
structure Left where
  currentRequest_ : HttpRequest := {}
  currentResponse_ : HttpResponse := {}
  currentHeaderField_ : Bytes := []
  currentHeaderValue_ : Bytes := []
  callbacks_ : CodecCallbacks := {}

def Left.codec (l : Left) (c : Http1Codec) : Http1Codec :=
  { c with
    currentRequest_ := l.currentRequest_, currentResponse_ := l.currentResponse_
    currentHeaderField_ := l.currentHeaderField_, currentHeaderValue_ := l.currentHeaderValue_ }

/-- What the user of a codec knows of it: how it began, what was set and what it decoded. -/
inductive CodecNote where
  | begun (id : Nat) (codec : Http1Codec) (callbacks : CodecCallbacks)
  | callbacks (id : Nat) (callbacks : CodecCallbacks)
  | decoded (id : Nat) (report : ParserReport)

/-- A pointer led to no object, or an exception left a callback. -/
inductive CodecFault where
  | dangling | exception
  deriving DecidableEq, Repr

/-- The objects at their addresses; an address is free before and after the life of an
object. `told` are the calls of `callbacks_` with the codecs that made them. -/
structure CodecMemory where
  objects : Nat → Option CodecObject := fun _ => none
  log : List CodecNote := []
  told : List (Nat × Emission) := []
  ids : Nat := 0

namespace CodecMemory

/-- The object that a pointer leads to. -/
def get (m : CodecMemory) (a : Nat) : Except CodecFault CodecObject :=
  match m.objects a with
  | none => .error .dangling
  | some o => .ok o

def set (m : CodecMemory) (a : Nat) (o : Option CodecObject) : CodecMemory :=
  { m with objects := Function.update m.objects a o }

def note (m : CodecMemory) (n : CodecNote) : CodecMemory := { m with log := m.log ++ [n] }

/-- A codec that has just begun. -/
def begin (m : CodecMemory) (o : CodecObject) : CodecMemory :=
  { m.note (.begun m.ids o.codec o.callbacks_) with ids := m.ids + 1 }

/-- The constructor. -/
def construct (m : CodecMemory) (a : Nat) (type : ParserType) : CodecMemory :=
  let o : CodecObject := { codec := { type := type }, data := a, settings := a, id := m.ids }
  (m.set a (some o)).begin o

/-- The move constructor. The parser that stays behind goes on pointing to its own object. -/
def moveConstruct (m : CodecMemory) (a other : Nat) (left : Left) :
    Except CodecFault CodecMemory := do
  let o ← m.get other
  let old := { o with
    codec := left.codec o.codec, callbacks_ := left.callbacks_, id := m.ids }
  .ok (((m.set other (some old)).set a (some { o with data := a, settings := a })).begin old)

/-- The members change places, and then the pointers are set. -/
def swap (m : CodecMemory) (a other : Nat) : Except CodecFault CodecMemory := do
  let o ← m.get a
  let o' ← m.get other
  let m := (m.set a (some o')).set other (some o)
  let mine ← m.get a
  let m := m.set a (some { mine with data := a, settings := a })
  let theirs ← m.get other
  .ok (m.set other (some { theirs with data := other, settings := other }))

def destroy (m : CodecMemory) (a : Nat) : CodecMemory := m.set a none

/-- `operator=(Http1Codec&&)`, with its temporary object. -/
def moveAssign (m : CodecMemory) (a other temporary : Nat) (left : Left) :
    Except CodecFault CodecMemory := do
  let m ← m.moveConstruct temporary other left
  let m ← m.swap temporary a
  .ok (m.destroy temporary)

def setCallbacks (m : CodecMemory) (a : Nat) (cbs : CodecCallbacks) :
    Except CodecFault CodecMemory := do
  let o ← m.get a
  .ok ((m.set a (some { o with callbacks_ := cbs })).note (.callbacks o.id cbs))

/-- A callback of the parser of the object, which finds its function in the settings and
acts on the object that the data pointer leads to. -/
def parserEvent (a : Nat) (m : CodecMemory) (ev : ParserEvent) :
    Except CodecFault CodecMemory := do
  let o ← m.get a
  let table ← m.get o.settings
  if table.settings_ then
    let self ← m.get o.data
    match self.codec.handle ev with
    | none => .error .exception
    | some (codec, emissions) =>
      .ok { m.set o.data (some { self with codec := codec }) with
        told := m.told ++ (emissions.filter self.callbacks_.takes).map fun e => (self.id, e) }
  else .ok m

/-- `decode`. A parser that has stopped makes no callbacks. -/
def decode (m : CodecMemory) (a : Nat) (report : ParserReport) :
    Except CodecFault CodecMemory := do
  let o ← m.get a
  let m := m.note (.decoded o.id report)
  if o.codec.errno ≠ .ok then .ok m
  else
    let m ← report.events.foldlM (parserEvent a) m
    let o ← m.get a
    .ok (m.set a (some { o with codec.errno := report.errno }))

end CodecMemory

/-- The calls on codecs. A temporary object gets any address that is free. -/
inductive CodecAct where
  | construct (a : Nat) (type : ParserType)
  | moveConstruct (a other : Nat) (left : Left)
  | moveAssign (a other temporary : Nat) (left : Left)
  | swap (a other : Nat)
  | destroy (a : Nat)
  | setCallbacks (a : Nat) (callbacks : CodecCallbacks)
  | decode (a : Nat) (report : ParserReport)

namespace CodecMemory

def step (m : CodecMemory) : CodecAct → Except CodecFault CodecMemory
  | .construct a type => .ok (m.construct a type)
  | .moveConstruct a other left => m.moveConstruct a other left
  | .moveAssign a other temporary left => m.moveAssign a other temporary left
  | .swap a other => m.swap a other
  | .destroy a => .ok (m.destroy a)
  | .setCallbacks a cbs => m.setCallbacks a cbs
  | .decode a report => m.decode a report

/-- Objects are constructed at free addresses, and there is one wherever one is used. -/
def Allowed (m : CodecMemory) : CodecAct → Prop
  | .construct a _ => m.objects a = none
  | .moveConstruct a other _ => m.objects a = none ∧ (m.objects other).isSome
  | .moveAssign a other temporary _ =>
    (m.objects a).isSome ∧ (m.objects other).isSome ∧ m.objects temporary = none
  | .swap a other => (m.objects a).isSome ∧ (m.objects other).isSome
  | .destroy a | .setCallbacks a _ | .decode a _ => (m.objects a).isSome

instance (m : CodecMemory) (act : CodecAct) : Decidable (m.Allowed act) := by
  cases act <;> unfold Allowed <;> infer_instance

end CodecMemory

namespace Http1Codec

/-- A callback of a parser whose codec stays where it is, and what its user has heard. -/
def hear (cbs : CodecCallbacks) (x : Http1Codec × List Emission) (ev : ParserEvent) :
    Option (Http1Codec × List Emission) :=
  (x.1.handle ev).map fun (codec, emissions) => (codec, x.2 ++ emissions.filter cbs.takes)

/-- `decode` of a codec that stays where it is. -/
def parse (cbs : CodecCallbacks) (c : Http1Codec) (report : ParserReport) :
    Option (Http1Codec × List Emission) :=
  if c.errno ≠ .ok then some (c, [])
  else (report.events.foldlM (hear cbs) (c, [])).map fun (codec, emissions) =>
    ({ codec with errno := report.errno }, emissions)

end Http1Codec

namespace CodecNote

/-- A codec with its callbacks and what its user has heard of it. -/
abbrev Parse := Http1Codec × CodecCallbacks × List Emission

def follow (id : Nat) (x : Option Parse) : CodecNote → Option Parse
  | .begun k codec cbs => if k = id then some (codec, cbs, []) else x
  | .callbacks k cbs => if k = id then x.map fun (codec, _, heard) => (codec, cbs, heard) else x
  | .decoded k report =>
    if k = id then x.bind fun (codec, cbs, heard) => (codec.parse cbs report).map
      fun (codec', more) => (codec', cbs, heard ++ more)
    else x

/-- What the notes tell of a codec; they know of no move. -/
def parseOf (id : Nat) (log : List CodecNote) : Option Parse := log.foldl (follow id) none

end CodecNote

end DeepSeer
