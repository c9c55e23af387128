import AgentUplink.Lib.Utf8

/-!
# The confined virtual path namespace

A virtual path is an absolute path inside one export's root. Validation refuses; it
never rewrites, so no text with a `.` or `..` component, an empty component, a
backslash, a colon, a control character or a device name becomes a path.
-/

namespace AgentUplink.Fs

open Utf8

def maxComponentBytes : Nat := 255

inductive PathRule
  | empty
  | missingLeadingSlash
  | tooLongBytes
  | tooManyComponents
  | componentTooLong
  | emptyComponent
  | dotComponent
  | dotDotComponent
  | nul
  | controlCharacter
  | backslash
  | colon
  | windowsDeviceName
  | trailingSpaceOrDot
  | separator
  deriving DecidableEq

/-- The reserved Windows device stems, with the superscript spellings. -/
def reservedDeviceStems : List String :=
  ["CON", "PRN", "AUX", "NUL", "CONIN$", "CONOUT$",
   "COM0", "COM1", "COM2", "COM3", "COM4", "COM5", "COM6", "COM7", "COM8", "COM9",
   "COM¹", "COM²", "COM³",
   "LPT0", "LPT1", "LPT2", "LPT3", "LPT4", "LPT5", "LPT6", "LPT7", "LPT8", "LPT9",
   "LPT¹", "LPT²", "LPT³"]

/-- The bounds a path is checked against. Neither is zero. -/
structure PathBounds where
  maxBytes : Nat
  maxComponents : Nat
  maxBytes_pos : 0 < maxBytes
  maxComponents_pos : 0 < maxComponents

/-- `text` is the whole path, `components` how many components it has. -/
structure VirtualPath where
  text : String
  components : Nat
  deriving DecidableEq

/-! ## Components -/

def eqIgnoreAsciiCase (a b : String) : Bool :=
  a.toList.map Char.toLower = b.toList.map Char.toLower

/-- The text before the first `.`, without the spaces at its end. -/
def deviceStem (component : String) : String :=
  String.ofList ((component.toList.takeWhile (· ≠ '.')).rdropWhile (· = ' '))

def isReservedDeviceStem (component : String) : Bool :=
  reservedDeviceStems.any fun reserved => eqIgnoreAsciiCase (deviceStem component) reserved

def refusedByte (byte : UInt8) : Option PathRule :=
  if byte = 0 then some .nul
  else if byte = 0x5C then some .backslash
  else if byte = 0x3A then some .colon
  else if (0x01 ≤ byte ∧ byte ≤ 0x1F) ∨ byte = 0x7F then some .controlCharacter
  else none

def refusedComponentByte (byte : UInt8) : Option PathRule :=
  if byte = 0 then some .nul
  else if byte = 0x5C then some .backslash
  else if byte = 0x3A then some .colon
  else if byte = 0x2F then some .separator
  else if (0x01 ≤ byte ∧ byte ≤ 0x1F) ∨ byte = 0x7F then some .controlCharacter
  else none

def checkComponent (component : String) : Except PathRule Unit :=
  if component.isEmpty then .error .emptyComponent
  else if component.utf8ByteSize > maxComponentBytes then .error .componentTooLong
  else if component = "." then .error .dotComponent
  else if component = ".." then .error .dotDotComponent
  else
    match (bytes component).findSome? refusedComponentByte with
    | some rule => .error rule
    | none =>
      if component.toList.getLast? = some '.' ∨ component.toList.getLast? = some ' ' then
        .error .trailingSpaceOrDot
      else if isReservedDeviceStem component then .error .windowsDeviceName
      else .ok ()

namespace VirtualPath

def root : VirtualPath := { text := "/", components := 0 }

/-- The loop over the components of a candidate, which counts them. -/
def checkComponents (bounds : PathBounds) : Nat → List String → Except PathRule Nat
  | components, [] => .ok components
  | components, component :: rest =>
    if components + 1 > bounds.maxComponents then .error .tooManyComponents
    else do
      checkComponent component
      checkComponents bounds (components + 1) rest

def pieces (text : List Char) : List String := (text.splitOn '/').map String.ofList

def parse (candidate : String) (bounds : PathBounds) : Except PathRule VirtualPath :=
  if candidate.isEmpty then .error .empty
  else if candidate.utf8ByteSize > bounds.maxBytes then .error .tooLongBytes
  else if candidate.toList.head? ≠ some '/' then .error .missingLeadingSlash
  else
    match (bytes candidate).findSome? refusedByte with
    | some rule => .error rule
    | none =>
      if candidate = "/" then .ok root
      else do
        let components ← checkComponents bounds 0 (pieces candidate.toList.tail)
        .ok { text := candidate, components }

variable (p : VirtualPath)

def isRoot : Bool := p.components == 0

def componentList : List String :=
  match p.text.toList with
  | '/' :: body => if body.isEmpty then [] else pieces body
  | _ => []

def beforeLastSlash (text : List Char) : List Char :=
  ((text.reverse.dropWhile (· ≠ '/')).drop 1).reverse

def parent : Option VirtualPath :=
  if p.isRoot then none
  else
    let cut := beforeLastSlash p.text.toList
    if cut.isEmpty then some root
    else some { text := String.ofList cut, components := p.components - 1 }

def join (component : String) (bounds : PathBounds) :
    Except PathRule VirtualPath := do
  checkComponent component
  parse (p.text ++ (if p.isRoot then "" else "/") ++ component) bounds

/-- The comparison of `isWithin`: the second list runs out first. -/
def within : List String → List String → Bool
  | _, [] => true
  | [], _ :: _ => false
  | mine :: rest, theirs :: others => if mine = theirs then within rest others else false

def isWithin (other : VirtualPath) : Bool := within p.componentList other.componentList

end VirtualPath

end AgentUplink.Fs
