/-
  Sockets from texts of the form `node:port`.

  Both parts are decimal numbers of 32 bits, with an optional plus sign and white space around them.  The
  first colon divides the parts.  The node is judged first; a digit is judged before the size of the
  number up to it.
-/
import FragmentGraph.Socket
import FragmentGraph.Text.Blank

namespace FragmentGraph

/-- Why a text is no number of 32 bits. -/
inductive NumberError where
  | empty
  | badDigit
  | tooLarge
deriving DecidableEq, Repr

def NumberError.message : NumberError → String
  | empty => "cannot parse integer from empty string"
  | badDigit => "invalid digit found in string"
  | tooLarge => "number too large to fit in target type"

/-- Why a text names no socket.  A part is shown as it was written. -/
inductive SocketError where
  | noColon (text : String)
  | badNode (part : String) (cause : NumberError)
  | badPort (part : String) (cause : NumberError)
deriving DecidableEq, Repr

def SocketError.message : SocketError → String
  | noColon text => "expected <node>:<port>, got '" ++ text ++ "'"
  | badNode part cause => "invalid node id '" ++ part ++ "': " ++ cause.message
  | badPort part cause => "invalid port index '" ++ part ++ "': " ++ cause.message

/-- Reads digits behind a number that is already read. -/
def readDigits (number : Nat) : List Char → Except NumberError Nat
  | [] => .ok number
  | c :: rest =>
    if c.isDigit then
      let next := number * 10 + (c.toNat - '0'.toNat)
      if next < 0x100000000 then readDigits next rest else .error .tooLarge
    else .error .badDigit

/-- Reads a number of 32 bits with an optional plus sign. -/
def readNumber : List Char → Except NumberError UInt32
  | [] => .error .empty
  | ['+'] => .error .badDigit
  | '+' :: digits => (readDigits 0 digits).map UInt32.ofNat
  | digits => (readDigits 0 digits).map UInt32.ofNat

/-- Reads a part with white space around its number. -/
def readPart (part : List Char) : Except NumberError UInt32 := readNumber (Text.trimBlank part)

/-- Reads a socket. -/
def Socket.read (text : String) : Except SocketError Socket :=
  let chars := text.toList
  let before := chars.takeWhile (· != ':')
  match chars.dropWhile (· != ':') with
  | [] => .error (.noColon text)
  | _ :: after =>
    match readPart before with
    | .error cause => .error (.badNode (String.ofList before) cause)
    | .ok node =>
      match readPart after with
      | .error cause => .error (.badPort (String.ofList after) cause)
      | .ok port => .ok ⟨node, port⟩

end FragmentGraph
