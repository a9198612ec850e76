/-
A catalogue of remote functions over every kind of parameter, to fill tables with. They share a
count of how many of them have run.
-/
import NamedDispatch.Remote.Codec
import NamedDispatch.Remote.Registry

namespace NamedDispatch.Catalogue

open Json (Cause)

/-! ## Structured parameters -/

/-- A point of the plane. -/
structure Point where
  x : Int32
  y : Int32
deriving DecidableEq, Repr

/-- Points as documents: records of `x` and `y`. -/
def point : Codec Point where
  decode j := do
    let (x, y) ← Json.Shape.recordOfTwo .argument "struct Point" "x" "y" Codec.int32.decode
      Codec.int32.decode j
    return ⟨x, y⟩
  encode p := do
    return Json.ofMembers [("x", ← Codec.int32.encode p.x), ("y", ← Codec.int32.encode p.y)]

/-- A figure: the variants have no content, a single value, a list, or a record. -/
inductive Figure where
  | dot
  | circle (radius : Int64)
  | line (start finish : Int64)
  | rect (w h : Int64)
deriving DecidableEq, Repr

namespace Figure

/-- Which figure it is. -/
inductive Kind where
  | dot
  | circle
  | line
  | rect
deriving DecidableEq, Repr

/-- The kinds of figures with the names that documents give them. -/
def Kind.all : List (String × Kind) :=
  [("Dot", .dot), ("Circle", .circle), ("Line", .line), ("Rect", .rect)]

/-- A number of a figure. -/
def asInt : Json → Except Cause Int64 := Codec.int64.decode

/-- Refuses a kind that stands without its content. -/
def bare {α : Type} (wanted : String) : Except Cause α := .error (.wrongType .bareVariant wanted)

/-- The figure of a kind, from its content: nothing, a value, a list or a record. -/
def ofContent : Kind → Option Json → Except Cause Figure
  | .dot, none => .ok .dot
  | .dot, some j => do
    Json.Shape.nothing .argument j
    return .dot
  | .circle, none => bare "newtype variant"
  | .circle, some j => .circle <$> asInt j
  | .line, none => bare "tuple variant"
  | .line, some (.arr []) => Json.Shape.refuse "tuple variant Shape::Line" .null
  | .line, some (.arr items) => do
    let (a, b) ← Json.Shape.two .argument "tuple variant Shape::Line with 2 elements" asInt asInt
      items
    return .line a b
  | .line, some j => Json.Shape.refuse "tuple variant" j
  | .rect, none => bare "struct variant"
  | .rect, some (.obj ms) => do
    let (w, h) ← Json.Shape.twoFields "w" "h" asInt asInt ms
    return .rect w h
  | .rect, some j => Json.Shape.refuse "struct variant" j

/-- The figure that a document stands for. -/
def ofJson (j : Json) : Except Cause Figure := do
  let (kind, content) ← Json.Shape.variant Kind.all j
  ofContent kind content

/-- The document of a figure: its name, or an object from its name to its content. -/
def toJson : Figure → Json
  | .dot => .str "Dot"
  | .circle r => .obj [("Circle", .ofInt64 r)]
  | .line a b => .obj [("Line", .arr [.ofInt64 a, .ofInt64 b])]
  | .rect w h => .obj [("Rect", .ofMembers [("w", .ofInt64 w), ("h", .ofInt64 h)])]

end Figure

/-- Figures as documents. -/
def figure : Codec Figure := ⟨Figure.ofJson, fun f => .ok f.toJson⟩

/-! ## Functions -/

/-- The number of runs so far, this one included. -/
def runs (before : UInt64) : UInt64 := before + 1

/-- A function without any effect but that its run is counted. -/
def counted (ps : List Parameter) {α : Type} (encode : α → Except Cause Json)
    (f : Arguments ps → α) (few : ps.length ≤ maxParameters := by decide) :
    RemoteFunction UInt64 :=
  ⟨ps, α, fun a n => (f a, runs n), encode, few⟩

open Codec

/-- The sum of two integers, modulo `2^64`. -/
def add : RemoteFunction UInt64 :=
  counted [int64.parameter, int64.parameter] int64.encode
    fun ((a, b, ()) : Int64 × Int64 × Unit) => a + b

/-- The product of two integers, modulo `2^64`. -/
def mul : RemoteFunction UInt64 :=
  counted [int64.parameter, int64.parameter] int64.encode
    fun ((a, b, ()) : Int64 × Int64 × Unit) => a * b

/-- The integer with the other sign. -/
def neg : RemoteFunction UInt64 :=
  counted [int64.parameter] int64.encode fun ((a, ()) : Int64 × Unit) => -a

/-- The square of a natural number, modulo `2^64`. -/
def square : RemoteFunction UInt64 :=
  counted [uint64.parameter] uint64.encode fun ((a, ()) : UInt64 × Unit) => a * a

/-- A greeting. -/
def hello : RemoteFunction UInt64 :=
  counted [string.parameter] string.encode
    fun ((name, ()) : String × Unit) => "Hello, " ++ name ++ "!"

/-- The text so many times. -/
def repeated : RemoteFunction UInt64 :=
  counted [string.parameter, uint8.parameter] string.encode
    fun ((s, n, ()) : String × UInt8 × Unit) => String.join (List.replicate n.toNat s)

/-- The point moved by `dx` and `dy`. -/
def shift : RemoteFunction UInt64 :=
  counted [point.parameter, int32.parameter, int32.parameter] point.encode
    fun ((p, dx, dy, ()) : Point × Int32 × Int32 × Unit) => ⟨p.x + dx, p.y + dy⟩

/-- Nothing at all. -/
def noop : RemoteFunction UInt64 := counted [] unit.encode fun () => ()

/-- The other truth value. -/
def negate : RemoteFunction UInt64 :=
  counted [bool.parameter] bool.encode fun ((b, ()) : Bool × Unit) => !b

/-- The numbers given, whatever their types, as a list. -/
def narrow : RemoteFunction UInt64 :=
  counted [uint8.parameter, int8.parameter, uint16.parameter, int16.parameter, uint32.parameter,
      int32.parameter] (list int64).encode
    fun ((a, b, c, d, e, f, ()) : UInt8 × Int8 × UInt16 × Int16 × UInt32 × Int32 × Unit) =>
      [a.toUInt64.toInt64, b.toInt64, c.toUInt64.toInt64, d.toInt64, e.toUInt64.toInt64, f.toInt64]

/-- One more than the number, if there is one. -/
def successor : RemoteFunction UInt64 :=
  counted [(optional int64).parameter] (optional int64).encode
    fun ((a, ()) : Option Int64 × Unit) => a.map (· + 1)

/-- The sum of the integers of a list. -/
def total : RemoteFunction UInt64 :=
  counted [(list int64).parameter] int64.encode
    fun ((as, ()) : List Int64 × Unit) => as.foldl (· + ·) 0

/-- The integer that stands under a name, if there is one. -/
def lookup : RemoteFunction UInt64 :=
  counted [(mapping int64).parameter, string.parameter] (optional int64).encode
    fun ((ms, name, ()) : List (String × Int64) × String × Unit) => ms.lookup name

/-- The two parts in the other order. -/
def swap : RemoteFunction UInt64 :=
  counted [(pair int64 string).parameter] (pair string int64).encode
    fun ((p, ()) : (Int64 × String) × Unit) => (p.2, p.1)

/-- Half of a number. -/
def half : RemoteFunction UInt64 :=
  counted [double.parameter] double.encode fun ((x, ()) : Double × Unit) => x.div (.ofNat 2)

/-- One over a number. -/
def recip : RemoteFunction UInt64 :=
  counted [double.parameter] double.encode fun ((x, ()) : Double × Unit) => (Double.ofNat 1).div x

/-- The code of a character. -/
def code : RemoteFunction UInt64 :=
  counted [char.parameter] uint32.encode fun ((c, ()) : Char × Unit) => c.val

/-- The document itself. -/
def echo : RemoteFunction UInt64 :=
  counted [value.parameter] value.encode fun ((j, ()) : Json × Unit) => j

/-- The figure itself. -/
def drawing : RemoteFunction UInt64 :=
  counted [figure.parameter] figure.encode fun ((f, ()) : Figure × Unit) => f

/-- The pairs as a map from integers. -/
def intKeys : RemoteFunction UInt64 :=
  counted [(list (pair int64 int64)).parameter] (encodeMap int64 int64)
    fun ((ps, ()) : List (Int64 × Int64) × Unit) => ps

/-- A map whose keys would be lists; only the empty one can be encoded. -/
def badKeys : RemoteFunction UInt64 :=
  counted [int64.parameter] (encodeMap (list int64) int64) fun ((n, ()) : Int64 × Unit) =>
    (List.range n.toInt.toNat).map fun i => ([Int64.ofNat i], Int64.ofNat i)

/-- The number of runs so far. -/
def tick : RemoteFunction UInt64 :=
  ⟨[string.parameter], UInt64, fun _ n => (runs n, runs n), uint64.encode, by decide⟩

/-- Arguments that all have the type of one parameter, as a list. -/
def argumentList (p : Parameter) : (n : Nat) → Arguments (List.replicate n p) → List p.Value
  | 0, () => []
  | n + 1, (a, rest) => a :: argumentList p n rest

/-- The sum of as many integers as a function can take. -/
def sumAll : RemoteFunction UInt64 :=
  counted (List.replicate maxParameters int64.parameter) int64.encode fun args =>
    let numbers : List Int64 := argumentList int64.parameter maxParameters args
    numbers.foldl (· + ·) 0

/-- All functions with the names that runs ask for. -/
def functions : List (String × RemoteFunction UInt64) :=
  [("add", add), ("mul", mul), ("neg", neg), ("square", square), ("hello", hello),
   ("repeat", repeated), ("shift", shift), ("noop", noop), ("negate", negate), ("narrow", narrow),
   ("opt", successor), ("total", total), ("lookup", lookup), ("swap", swap), ("half", half),
   ("recip", recip), ("code", code), ("echo", echo), ("shape", drawing), ("int_keys", intKeys),
   ("bad_keys", badKeys), ("tick", tick), ("sum12", sumAll)]

/-! ## Handlers of documents -/

/-- Answers with the list of its arguments. -/
def rawEcho : Handler UInt64 := fun args n => (.ok (.arr args), runs n)

/-- Answers with the number of arguments and the number of runs. -/
def rawCount : Handler UInt64 := fun args n =>
  (.ok (.arr [.ofUInt64 (.ofNat args.length), .ofUInt64 (runs n)]), runs n)

/-- Fails with the kind that the first argument names. -/
def rawFail : Handler UInt64 := fun args n =>
  let kind := match args with
    | [] => FaultKind.serverReceive
    | j :: _ => match faultKind.decode j with
      | .ok kind => kind
      | .error _ => .serverReceive
  (.error ⟨kind, "raw failure of " ++ toString args.length ++ " argument(s)"⟩, runs n)

/-- All handlers with the names that runs ask for. -/
def handlers : List (String × Handler UInt64) :=
  [("raw_echo", rawEcho), ("raw_count", rawCount), ("raw_fail", rawFail)]

/-! ## The registry -/

/-- The functions that register themselves, in no particular order. -/
def registry : List (Entry UInt64) :=
  [.ofFunction "reg_tick" tick true ["Tick"],
   .ofFunction "reg_add" add false ["Plus", "Sum"],
   .ofFunction "reg_bad" badKeys true [],
   .ofFunction "reg_noop" noop false [],
   .ofFunction "reg_shift" shift false []]

end NamedDispatch.Catalogue
