import MemoryTraceTool.Lib.Json

/-!
# Lists of library names

`MTT_LIB_BLACKLIST` and `MTT_LIB_BLACKLIST_FAST` hold library names between
commas.  Both are copied into a buffer of 512 bytes and taken apart with
`strtok`.
-/

namespace MemoryTraceTool.LibBlacklist

open Json

/-- What a buffer of 512 bytes takes of a value. -/
def copyEnv (env : Bytes) : Bytes := env.take 511

/-- The tokens between commas; `strtok` returns no empty one. -/
def strtokComma (buf : Bytes) : List Bytes :=
  (buf.splitOn 44).filter fun token => token != []

def skipBlanks (token : Bytes) : Bytes :=
  token.dropWhile fun byte => byte == 32 || byte == 9

/-- The library names, without those that are blank. -/
def libTokens (buf : Bytes) : List Bytes :=
  ((strtokComma buf).map skipBlanks).filter fun token => token != []

/-- `lib_blacklist`, if `lib_blacklist_ready`. -/
def readLibBlacklist (env : Option Bytes) : Option Bytes :=
  match env with
  | none | some [] => none
  | some (byte :: rest) => some (copyEnv (byte :: rest))

/-- The token loop of `is_internal_frame`. -/
def searchTokens (symbol : Bytes) : List Bytes → Bool
  | [] => false
  | token :: rest =>
      if skipBlanks token ≠ [] ∧ skipBlanks token <:+: symbol then true
      else searchTokens symbol rest

theorem searchTokens_strtokComma {symbol buf : Bytes} :
    searchTokens symbol (strtokComma buf) = true ↔
      ∃ token ∈ libTokens buf, token <:+: symbol := by
  unfold libTokens
  induction strtokComma buf with
  | nil => simp [searchTokens]
  | cons token tokens induction =>
      rw [searchTokens]
      by_cases blank : skipBlanks token = []
      · simp [blank, induction]
      · by_cases found : skipBlanks token <:+: symbol
        · simp [blank, found]
        · simp [blank, found, induction]

end MemoryTraceTool.LibBlacklist
