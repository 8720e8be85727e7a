import MemoryTraceTool.AddrValidate
import MemoryTraceTool.Lib.Json

/-!
# The texts of stack frames

`resolve_one_frame` asks `dladdr` for the function and the library of an
address and `backtrace_symbols` where that is not enough, and formats what it
found into a buffer of 256 bytes.  Pointers and `ptrdiff_t` have `w` bits.
-/

namespace MemoryTraceTool.SymbolText

open Json AddrValidate
open Scanf (scanNumber)

def mttSymbolMax : Nat := 256

/-- `Dl_info`; a NULL pointer is 0 or `none`. -/
structure DlInfo (w : Nat) where
  fname : Option Bytes
  fbase : BitVec w
  sname : Option Bytes
  saddr : BitVec w
  deriving DecidableEq, Repr

/-- What the process answers, and goes on to answer: `dladdr`, the one text
that `backtrace_symbols` gives, the first bytes of `/proc/self/exe`, the path
it leads to, and the demangler. -/
structure Symbols (w : Nat) where
  dladdr : BitVec w → Option (DlInfo w)
  backtraceSymbols : BitVec w → Option Bytes
  exeHeader : Option Bytes
  exePath : Option Bytes
  cxaDemangle : Bytes → Option Bytes

/-- The four values that are formatted. -/
structure FrameParts (w : Nat) where
  funcName : Bytes
  libName : Bytes
  funcOff : BitVec w
  fileOff : BitVec w
  deriving DecidableEq, Repr

/-! ## Strings -/

/-- The text from the first occurrence on. -/
def strchr (text : Bytes) (wanted : UInt8) : Option Bytes :=
  match text.dropWhile fun byte => byte ≠ wanted with
  | [] => none
  | found => some found

/-- What follows the last slash. -/
def basename (fname : Bytes) : Bytes :=
  match strrchr fname 47 with
  | some found => found.drop 1
  | none => fname

/-- Without the blanks and tabs at the end. -/
def trimEnd (text : Bytes) : Bytes :=
  (text.reverse.dropWhile fun byte => byte = 32 ∨ byte = 9).reverse

def strtoul (w : Nat) (text : Bytes) : BitVec w :=
  match scanNumber w 16 text with
  | some (value, _) => BitVec.ofNat w value
  | none => 0

/-- `"%#tx"`. -/
def formatOffset (off : Nat) : Bytes :=
  if off = 0 then ascii "0" else ascii "0x" ++ hex off

/-- `"%s+%#tx (%s+%#tx)"`. -/
def formatFrame (funcName : Bytes) (funcOff : Nat) (libName : Bytes)
    (fileOff : Nat) : Bytes :=
  funcName ++ ascii "+" ++ formatOffset funcOff ++ ascii " (" ++ libName ++
    ascii "+" ++ formatOffset fileOff ++ ascii ")"

/-- The formatted frame as it fits into the buffer. -/
def storedFrame (funcName : Bytes) (funcOff : Nat) (libName : Bytes)
    (fileOff : Nat) : Bytes :=
  (formatFrame funcName funcOff libName fileOff).take (mttSymbolMax - 1)

/-! ## The answer of `backtrace_symbols` -/

/-- `binary(func+0xOFFSET) [0xADDR]`, split at its first parenthesis. -/
structure SymsText where
  before : Bytes
  after : Bytes

def splitSyms (text : Bytes) : Option SymsText :=
  match strchr text 40 with
  | none => none
  | some found =>
      some
        { before := text.takeWhile fun byte => byte ≠ 40
          after := found.drop 1 }

/-- What stands between the parentheses. -/
inductive SymsName (w : Nat) where
  | function (name : Bytes) (offset : BitVec w)
  | onlyName (name : Bytes)
  | missing

def symsName (w : Nat) (text : Bytes) : SymsName w :=
  match splitSyms text with
  | none => .missing
  | some syms =>
      let plus := syms.after.idxOf 43
      let rparen := syms.after.idxOf 41
      if plus < rparen ∧ rparen < syms.after.length then
        .function (syms.after.take plus)
          (strtoul w (syms.after.drop (plus + 1)))
      else if 0 < rparen ∧ rparen < syms.after.length then
        .onlyName (syms.after.take rparen)
      else .missing

def skipDotSlash (text : Bytes) : Bytes :=
  if ascii "./" <+: text then text.drop 2 else text

/-- The name of the binary, empty if there is none. -/
def binaryName (text : Bytes) : Bytes :=
  match splitSyms text with
  | none => []
  | some syms => trimEnd (skipDotSlash syms.before)

/-- The same in the branch that also skips a bracketed address; the blank
after that may be behind the parenthesis. -/
def binaryNameSkipping (text : Bytes) : Bytes :=
  match splitSyms text with
  | none => []
  | some syms =>
      let start := skipDotSlash syms.before
      if start.head? = some 91 then
        match strchr start 32 with
        | some found => trimEnd (found.drop 1)
        | none => if 32 ∈ syms.after then [] else trimEnd start
      else trimEnd start

/-! ## One frame -/

section

variable {w : Nat}

/-- A negative difference becomes 0. -/
def clamp (off : BitVec w) : BitVec w :=
  if off.toInt < 0 then 0 else off

/-- The type field of the header says that the executable has fixed
addresses. -/
def mainIsNonPie (symbols : Symbols w) : Bool :=
  match symbols.exeHeader with
  | none => false
  | some header =>
      let hdr := header.take 64
      decide (20 ≤ hdr.length) &&
        decide ([127, 69, 76, 70] <+: hdr) &&
        (hdr.drop 16).take 2 == [2, 0]

/-- `is_main_exe_path`. -/
def isMainExePath (symbols : Symbols w) (fname : Bytes) : Bool :=
  match symbols.exePath with
  | none => false
  | some path => fname != [] && fname == path.take 511

/-- `frame_addr2line_addr`. -/
def frameAddr2lineAddr (symbols : Symbols w) (addr : BitVec w)
    (fname : Bytes) (dliFbase : BitVec w) : BitVec w :=
  if mainIsNonPie symbols && isMainExePath symbols fname then addr
  else if dliFbase ≠ 0 then addr - dliFbase
  else addr

def orUnknown (parts : FrameParts w) : FrameParts w :=
  if parts.funcName = [] then { parts with funcName := ascii "??" } else parts

def toolLibrary : Bytes := ascii "libmemorytracetool"

/-- The name that `dladdr` gave lies in this library: take the answer of
`backtrace_symbols` instead. -/
def correctLibrary (parts : FrameParts w) (syms : Option Bytes) :
    FrameParts w :=
  match syms with
  | none => orUnknown parts
  | some text =>
      let parts :=
        if binaryName text ≠ [] then
          { parts with libName := (binaryName text).take 255 }
        else parts
      orUnknown <|
        match symsName w text with
        | .function name offset =>
            { parts with
              funcName := if name.length < 256 then name else []
              funcOff := offset }
        | .onlyName name =>
            if name.length < 256 then { parts with funcName := name }
            else parts
        | .missing => { parts with funcName := [] }

/-- `dladdr` knows the library but not the function. -/
def nameUnnamed (parts : FrameParts w) (syms : Option Bytes) :
    FrameParts w :=
  match syms with
  | none => orUnknown parts
  | some text =>
      let parts :=
        if binaryNameSkipping text ≠ [] ∧
            toolLibrary <:+: parts.libName then
          { parts with libName := (binaryNameSkipping text).take 255 }
        else parts
      orUnknown <|
        match symsName w text with
        | .function name offset =>
            { parts with
              funcName := if name ≠ [] then name.take 255 else parts.funcName
              funcOff := offset }
        | .onlyName name => { parts with funcName := name.take 255 }
        | .missing => parts

/-- `dladdr` knows nothing. -/
def nameUnknown (addr : BitVec w) (syms : Option Bytes) : FrameParts w :=
  let parts : FrameParts w :=
    { funcName := []
      libName := ascii "??"
      funcOff := 0
      fileOff := 0 }
  let parts :=
    match syms.map (symsName w) with
    | some (.function name offset) =>
        { parts with funcName := name.take 255, funcOff := offset }
    | some (.onlyName name) => { parts with funcName := name.take 255 }
    | some .missing | none => parts
  if parts.funcName = [] then
    { parts with funcName := ascii "0x" ++ hex addr.toNat }
  else parts

def nameKnown (symbols : Symbols w) (addr : BitVec w) (info : DlInfo w) :
    FrameParts w :=
  let fullFname := info.fname.getD []
  let fileOff :=
    if info.fbase ≠ 0 then
      clamp (frameAddr2lineAddr symbols addr fullFname info.fbase)
    else 0
  match info.sname with
  | some sname =>
      let parts : FrameParts w :=
        { funcName := sname.take 255
          libName := basename fullFname
          funcOff :=
            if info.saddr ≠ 0 then clamp (addr - mttFixThumbAddr info.saddr)
            else 0
          fileOff := fileOff }
      if toolLibrary <:+: parts.libName then
        correctLibrary parts (symbols.backtraceSymbols addr)
      else parts
  | none =>
      nameUnnamed
        { funcName := []
          libName := basename fullFname
          funcOff := if info.fbase ≠ 0 then clamp (addr - info.fbase) else 0
          fileOff := fileOff }
        (symbols.backtraceSymbols addr)

/-- `demangle_symbol`. -/
def demangleSymbol (symbols : Symbols w) (mangled : Bytes) : Bytes :=
  if ascii "_Z" <+: mangled then
    match symbols.cxaDemangle mangled with
    | some demangled => demangled.take 255
    | none => mangled.take 255
  else mangled.take 255

/-- The text of a frame that is not in the cache. -/
def frameText (symbols : Symbols w) (addr : BitVec w) : Bytes :=
  let parts :=
    match symbols.dladdr addr with
    | some info => nameKnown symbols addr info
    | none => nameUnknown addr (symbols.backtraceSymbols addr)
  storedFrame (demangleSymbol symbols parts.funcName) parts.funcOff.toNat
    parts.libName parts.fileOff.toNat

theorem length_frameText_lt (symbols : Symbols w) (addr : BitVec w) :
    (frameText symbols addr).length < mttSymbolMax := by
  simp only [frameText, storedFrame, List.length_take, mttSymbolMax]
  omega

end

end MemoryTraceTool.SymbolText
