/-
# Failures

Everything that can go wrong is a cause here, and `Failure.message` words it.  A failure that a
server or its connection raised comes with its own name and text and is passed on unchanged.

What ends a program (`RemoteError.endings`) is not among the failures: whoever waits for an outcome
would let it pass, so `Failure.remote` asks for the proof that an error is no such ending.
-/
import Keyscope.Text.Quoted

namespace Keyscope

/-- What an error of a connection is about. -/
inductive ErrorFamily where
  | network
  | auth
  | server
  deriving DecidableEq, Repr

def ErrorFamily.toText : ErrorFamily → Text
  | network => "network"
  | auth => "auth"
  | server => "server"

/-- An error raised at the other end of a connection: the name of its kind, what it says, and what
it is about if it belongs to the connection itself. -/
structure RemoteError where
  name : Text
  detail : Option Text
  family : Option ErrorFamily
  deriving DecidableEq, Repr

namespace RemoteError

/-- An error that does not belong to a connection. -/
def plain (name : Text) (detail : Option Text) : RemoteError := ⟨name, detail, none⟩

/-- Kinds that say of a missing detail that there is none. -/
def namingNothing : List String :=
  ["SyntaxError", "IndentationError", "TabError", "LockError", "LockNotOwnedError"]

/-- What the error says.  A missing key is said between quotes. -/
def message (e : RemoteError) : Text :=
  match e.detail with
  | none => if namingNothing.any fun n => e.name = Text.ofString n then "None" else []
  | some d => if e.name = "KeyError" then Quoted.text d else d

/-- The error as messages list it: what it is about and its name, or its name and its detail
between quotes. -/
def shown (e : RemoteError) : Text :=
  match e.family with
  | some f => f.toText ++ ":" ++ e.name
  | none =>
    e.name ++ "(" ++ (match e.detail with
      | none => []
      | some d => Quoted.text d) ++ ")"

/-- Kinds that end a program and are no failures of what it does. -/
def endings : List String :=
  ["BaseException", "KeyboardInterrupt", "SystemExit", "GeneratorExit", "BaseExceptionGroup"]

/-- Whether the error means that something failed. -/
def isFailure (e : RemoteError) : Bool := !endings.any fun n => e.name = Text.ofString n

end RemoteError

/-- Where a text stops being a JSON document. -/
structure JsonError where
  /-- What was expected, or what is wrong. -/
  problem : Text
  line : Nat
  column : Nat
  position : Nat
  deriving DecidableEq, Repr

/-- What can go wrong. -/
inductive Failure where
  /-- Raised by a server or its connection. -/
  | remote (e : RemoteError) (isFailure : e.isFailure = true := by rfl)
  -- numbers
  | malformedInteger (shown : Text)
  | integerTextTooLong (digits : Nat)
  | integerTooLong
  | notAnInteger (type : Text)
  | malformedReal (shown : Text)
  | notAReal (type : Text)
  | nanToInteger
  | infinityToInteger
  | integerTooLarge
  | quotientTooLarge
  | notANumber (type : Text)
  | notComparable (sign left right : Text)
  | notAddable (left right : Text)
  | notAPosition
  | textAsAmount
  | notAnAmount (type : Text)
  | groupedText
  -- shapes of values
  | noAttribute (type name : Text)
  | notIterable (type : Text)
  | notUnpackable (type : Text)
  | tooManyParts (expected : Nat)
  | tooFewParts (expected got : Nat)
  | notIndexable (type : Text)
  | indexOutOfRange (what : Text)
  | missingKey (shown : Text)
  | noLength (type : Text)
  | unhashable (type : Text)
  | nestedTooDeep (what : Text)
  | notAName (type : Text)
  | notText (type : Text)
  | bytesForText
  | textForBytes
  | notACell (type : Text)
  -- text and files
  | unencodable (e : Utf8.EncodeError)
  | undecodable (e : Utf8.DecodeError)
  | malformedJson (e : JsonError)
  | noSuchFile (path : Text)
  | isADirectory (path : Text)
  | notADirectory (path : Text)
  | fileExists (path : Text)
  | nameTooLong (path : Text)
  | nulInPath
  | noHomeDirectory
  | notAPath (type : Text)
  | notATextPath (type : Text)
  -- the program's own rules
  | capNotPositive
  | targetWithoutId
  | targetWithoutHost (id : Text)
  | invalidPort (id : Text) (port : Int)
  | scanFailed (target : Text) (cause : Failure)
  | noTelemetrySource
  | notAnObject (path : Text)
  | unknownLevel (text : Text)
  | notALevel (shown : Text)
  | notALevelName (type : Text)
  deriving DecidableEq, Repr

namespace Failure

/-- The reason a byte run is no character. -/
def faultText : Utf8.Fault → Text
  | .badStart => "invalid start byte"
  | .badContinuation => "invalid continuation byte"
  | .truncated => "unexpected end of data"

/-- One position, or the first and the last one of several. -/
def span (start size : Nat) : Text :=
  if size ≤ 1 then "in position " ++ Decimal.ofNat start
  else "in position " ++ Decimal.ofNat start ++ "-" ++ Decimal.ofNat (start + size - 1)

/-- The first code points of a long text. -/
def clipped (t : Text) : Text := t.take 200

/-- The words for a failure. -/
def message : Failure → Text
  | remote e _ => e.message
  | malformedInteger shown => "invalid literal for int() with base 10: " ++ clipped shown
  | integerTextTooLong digits =>
    "Exceeds the limit (4300 digits) for integer string conversion: value has " ++
      Decimal.ofNat digits ++ " digits; use sys.set_int_max_str_digits() to increase the limit"
  | integerTooLong =>
    "Exceeds the limit (4300 digits) for integer string conversion; " ++
      "use sys.set_int_max_str_digits() to increase the limit"
  | notAnInteger type =>
    "int() argument must be a string, a bytes-like object or a real number, not '" ++ type ++ "'"
  | malformedReal shown => "could not convert string to float: " ++ shown
  | notAReal type => "float() argument must be a string or a real number, not '" ++ type ++ "'"
  | nanToInteger => "cannot convert float NaN to integer"
  | infinityToInteger => "cannot convert float infinity to integer"
  | integerTooLarge => "int too large to convert to float"
  | quotientTooLarge => "integer division result too large for a float"
  | notANumber type => "must be real number, not " ++ type
  | notComparable sign left right =>
    "'" ++ sign ++ "' not supported between instances of '" ++ left ++ "' and '" ++ right ++ "'"
  | notAddable left right =>
    "unsupported operand type(s) for +: '" ++ left ++ "' and '" ++ right ++ "'"
  | notAPosition => "slice indices must be integers or None or have an __index__ method"
  | textAsAmount => "Unknown format code 'f' for object of type 'str'"
  | notAnAmount type => "unsupported format string passed to " ++ type ++ ".__format__"
  | groupedText => "Cannot specify ',' with 's'."
  | noAttribute type name => "'" ++ type ++ "' object has no attribute '" ++ name ++ "'"
  | notIterable type => "'" ++ type ++ "' object is not iterable"
  | notUnpackable type => "cannot unpack non-iterable " ++ type ++ " object"
  | tooManyParts expected => "too many values to unpack (expected " ++ Decimal.ofNat expected ++ ")"
  | tooFewParts expected got =>
    "not enough values to unpack (expected " ++ Decimal.ofNat expected ++ ", got " ++
      Decimal.ofNat got ++ ")"
  | notIndexable type => "'" ++ type ++ "' object is not subscriptable"
  | indexOutOfRange what => what ++ "index out of range"
  | missingKey shown => shown
  | noLength type => "object of type '" ++ type ++ "' has no len()"
  | unhashable type => "unhashable type: '" ++ type ++ "'"
  | notAName type => "keys must be str, int, float, bool or None, not " ++ type
  | notText type => "expected string or bytes-like object, got '" ++ type ++ "'"
  | bytesForText => "cannot use a string pattern on a bytes-like object"
  | textForBytes => "a bytes-like object is required, not 'str'"
  | notACell type =>
    "unable to render " ++ type ++ "; a string or other renderable object is required"
  | nestedTooDeep what => "maximum recursion depth exceeded while " ++ what
  | unencodable e =>
    let size := e.stop - e.start
    "'utf-8' codec can't encode character" ++
      (if size ≤ 1 then " '" ++ Quoted.numbered e.first ++ "' " else "s ") ++ span e.start size ++
      ": surrogates not allowed"
  | undecodable e =>
    "'utf-8' codec can't decode byte" ++
      (match e.bytes with
        | [b] => " 0x" ++ Decimal.hex 2 b.toNat ++ " "
        | _ => "s ") ++ span e.position e.bytes.length ++ ": " ++ faultText e.fault
  | malformedJson e =>
    e.problem ++ ": line " ++ Decimal.ofNat e.line ++ " column " ++ Decimal.ofNat e.column ++
      " (char " ++ Decimal.ofNat e.position ++ ")"
  | noSuchFile path => "[Errno 2] No such file or directory: " ++ Quoted.text path
  | isADirectory path => "[Errno 21] Is a directory: " ++ Quoted.text path
  | notADirectory path => "[Errno 20] Not a directory: " ++ Quoted.text path
  | fileExists path => "[Errno 17] File exists: " ++ Quoted.text path
  | nameTooLong path => "[Errno 36] File name too long: " ++ Quoted.text path
  | nulInPath => "embedded null byte"
  | noHomeDirectory => "Could not determine home directory."
  | notAPath type => "expected str, bytes or os.PathLike object, not " ++ type
  | notATextPath type =>
    "argument should be a str object or an os.PathLike object returning str, not <class '" ++
      type ++ "'>"
  | capNotPositive => "max_keys must be positive"
  | targetWithoutId => "target is missing an 'id'"
  | targetWithoutHost id => "target '" ++ id ++ "' is missing a 'host'"
  | invalidPort id port => "target '" ++ id ++ "' has invalid port " ++ Decimal.ofInt port
  | scanFailed target cause => "Failed to scan keyspace of " ++ target ++ ": " ++ cause.message
  | noTelemetrySource => "No telemetry provider configured"
  | notAnObject path => path ++ ": expected a JSON object at top level"
  | unknownLevel text => "Unknown level: " ++ Quoted.text text
  | notALevel shown => "Level not an integer or a valid string: " ++ shown
  | notALevelName type => "attribute name must be string, not '" ++ type ++ "'"

/-- Whether something is beyond all bounds: a number that is too large, or a value that is nested
too deep. -/
def isBeyondBounds : Failure → Bool
  | infinityToInteger => true
  | integerTooLarge => true
  | quotientTooLarge => true
  | nestedTooDeep _ => true
  | _ => false

/-- What a failure leaves to be read: its words, or the name of its kind if it has none.  Only
an error from a server can be without words. -/
def label (f : Failure) : Text :=
  match f with
  | remote e _ => if e.message.isEmpty then e.name else e.message
  | _ => f.message

end Failure

end Keyscope
