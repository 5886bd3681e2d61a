import KNex.Core.Bytes
import KNex.Core.Except
import KNex.Core.JsMap
import KNex.Core.TextCoding

/-!
# Normalized archives

`packages/extension-bundler/src/tar.ts`: an archive is written as a tar of one header and one body
for each file, in the order of the paths, and read back by a loop over the bytes. Header fields
have fixed places and widths (`header`, `readEntry`); numbers are octal digits, and texts end where
`/\0.*$/u` matches (`cutNul`).

The compression, the decoding of UTF-8 that never fails, the normal form and the lower case of a
path and the order of the locale are a `Host`. The loop of the extraction ends by itself: each round
moves the offset past a header (`extractLoop`).
-/
namespace KNex.Extensions.Tar

open KNex.Core KNex.Core.JsonText KNex.Core.TextCoding

/-! ## Data -/

structure ArchiveEntry where
  path : Str
  bytes : List UInt8
  deriving DecidableEq

structure ExtractionLimits where
  maxCompressedBytes : Nat
  maxFiles : Nat
  maxFileBytes : Nat
  maxTotalBytes : Nat
  maxPathDepth : Nat

def defaultExtractionLimits : ExtractionLimits where
  maxCompressedBytes := 32 * 1024 * 1024
  maxFiles := 512
  maxFileBytes := 64 * 1024 * 1024
  maxTotalBytes := 256 * 1024 * 1024
  maxPathDepth := 16

structure Host where
  gzipSync : List UInt8 → List UInt8
  /-- With its `maxOutputLength`; `none` where it throws. -/
  gunzipSync : List UInt8 → Nat → Option (List UInt8)
  /-- `buffer.toString("utf8")`. -/
  utf8 : List UInt8 → Str
  /-- `text.normalize("NFC")`. -/
  normalize : Str → Str
  toLowerCase : Str → Str
  /-- `left.localeCompare(right) <= 0`. -/
  localeLe : Str → Str → Bool

/-- An error, by its message. -/
abbrev Result (α : Type) := Except Str α

def fail {α : Type} (message : Str) : Result α :=
  .error (units "Invalid extension archive: " ++ message)

def failWhen (condition : Prop) [Decidable condition] (message : Str) : Result Unit :=
  failIf condition (units "Invalid extension archive: " ++ message)

/-! ## Paths -/

def unsafeSegment (segment : Str) : Bool :=
  segment = [] || segment = units "." || segment = units ".."

def depthExceeds (segments : Nat) : Option Nat → Bool
  | none => false
  | some maxPathDepth => maxPathDepth < segments

/-- `none` is no limit.
mirrors packages/extension-bundler/src/tar.ts:16-20 -/
def safePath (path : Str) (maxPathDepth : Option Nat) : Result Str := do
  let segments := path.splitOn 47
  failWhen (path = [] ∨ 256 < path.length ∨ path.head? = some 47 ∨ 92 ∈ path ∨
      depthExceeds segments.length maxPathDepth ∨ segments.any unsafeSegment)
    (units "unsafe path " ++ quote path)
  return path

/-- mirrors packages/extension-bundler/src/tar.ts:22 -/
def casePath (host : Host) (path : Str) : Str := host.toLowerCase (host.normalize path)

/-! ## Fields -/

/-- What `.` does not match. -/
def isLineTerminator (c : UInt16) : Bool := c = 10 || c = 13 || c = 0x2028 || c = 0x2029

/-- `text.replace(/\0.*$/u, "")`: the first match is at the first NUL that no line terminator
follows, and takes everything from there. -/
def cutNul : Str → Str
  | [] => []
  | c :: s => if c = 0 && !s.any isLineTerminator then [] else c :: cutNul s

/-- `buffer.toString("ascii")`, which drops the highest bit of each byte. -/
def ascii (bytes : List UInt8) : Str := bytes.map fun byte => UInt16.ofNat (byte.toNat % 128)

def isAsciiSpace (c : UInt16) : Bool := (9 ≤ c && c ≤ 13) || c = 32

/-- `text.trim()` on ASCII. -/
def trim (text : Str) : Str :=
  ((text.dropWhile isAsciiSpace).reverse.dropWhile isAsciiSpace).reverse

def isOctalDigit (c : UInt16) : Bool := 48 ≤ c && c ≤ 55

/-- `Number.parseInt(text || "0", 8)`. -/
def octalValue (text : Str) : Nat := text.foldl (fun n c => 8 * n + (c.toNat - 48)) 0

/-- mirrors packages/extension-bundler/src/tar.ts:24-30 -/
def octal (bytes : List UInt8) : Result Nat := do
  let text := trim (cutNul (ascii bytes))
  failWhen (¬ text.all isOctalDigit) (units "invalid tar size")
  failWhen (9007199254740991 < octalValue text) (units "invalid tar size")
  return octalValue text

def byteSum (bytes : List UInt8) : Nat := (bytes.map UInt8.toNat).sum

/-- mirrors packages/extension-bundler/src/tar.ts:32-37 -/
def checksum (header : List UInt8) : Result Unit := do
  let claimed ← octal (subarray header 148 156)
  failWhen (byteSum (fillBytes header 0x20 148 156) ≠ claimed) (units "invalid tar checksum")

/-- mirrors packages/extension-bundler/src/tar.ts:39-43 -/
def writeString (target : List UInt8) (offset width : Nat) (value : Str) : Result (List UInt8) := do
  let bytes := encode value
  failIf (width < bytes.length) (units "Tar field is too long: " ++ value)
  return setBytes target offset bytes

/-- `value.toString(8).padStart(width, "0")`. -/
def octalText (width value : Nat) : Str :=
  let digits := (Nat.toDigits 8 value).map fun c => UInt16.ofNat c.toNat
  List.replicate (width - digits.length) 48 ++ digits

/-- mirrors packages/extension-bundler/src/tar.ts:45-48 -/
def writeOctal (target : List UInt8) (offset width value : Nat) : Result (List UInt8) :=
  writeString target offset (width - 1) (octalText (width - 1) value)

/-! ## Writing -/

/-- mirrors packages/extension-bundler/src/tar.ts:56-68 -/
def header (path : Str) (size : Nat) : Result (List UInt8) := do
  let header := List.replicate 512 0
  let header ← writeString header 0 100 path
  let header ← writeOctal header 100 8 0o644
  let header ← writeOctal header 108 8 0
  let header ← writeOctal header 116 8 0
  let header ← writeOctal header 124 12 size
  let header ← writeOctal header 136 12 0
  let header := fillBytes header 0x20 148 156
  let header := setBytes header 156 [0x30]
  let header ← writeString header 257 6 (units "ustar")
  let header ← writeString header 263 2 (units "00")
  writeString header 148 8 (octalText 6 (byteSum header) ++ [0, 32])

def padding (size : Nat) : Nat := (512 - size % 512) % 512

/-- mirrors packages/extension-bundler/src/tar.ts:55-72 -/
def chunk (entry : ArchiveEntry) : Result (List UInt8) := do
  let header ← header entry.path entry.bytes.length
  return header ++ entry.bytes ++ List.replicate (padding entry.bytes.length) 0

/-- mirrors packages/extension-bundler/src/tar.ts:50-75 -/
def createNormalizedTarGz (host : Host) (entries : List ArchiveEntry) : Result (List UInt8) := do
  let safe ← entries.mapM fun entry => do
    let path ← safePath entry.path none
    return { entry with path }
  let sorted := safe.mergeSort fun left right => host.localeLe left.path right.path
  failIf (¬ (sorted.map ArchiveEntry.path).Nodup)
    (units "A normalized archive cannot contain duplicate paths.")
  failIf (¬ (sorted.map fun entry => casePath host entry.path).Nodup)
    (units "A normalized archive cannot contain case-colliding paths.")
  let chunks ← sorted.mapM chunk
  return host.gzipSync (chunks.flatten ++ List.replicate 1024 0)

/-! ## Reading -/

/-- What the loop has at the start of a round, besides the offset. -/
structure Extracted where
  total : Nat
  files : JsMap Str (List UInt8)
  casePaths : List Str

/-- The path and the size that a header states, after all checks of a round.
mirrors packages/extension-bundler/src/tar.ts:92-107 -/
def readEntry (host : Host) (limits : ExtractionLimits) (tar : List UInt8) (offset : Nat)
    (extracted : Extracted) : Result (Str × Nat) := do
  let header := subarray tar offset (offset + 512)
  failWhen (ascii (subarray header 257 263) ≠ units "ustar" ++ [0]) (units "unsupported tar format")
  failWhen ((subarray header 345 500).any (· ≠ 0)) (units "tar path prefixes are not allowed")
  checksum header
  let path ← safePath (cutNul (host.utf8 (subarray header 0 100))) (some limits.maxPathDepth)
  failWhen (header.getD 156 0 ≠ 0 ∧ header.getD 156 0 ≠ 0x30)
    (units "unsupported tar entry type for " ++ path)
  let size ← octal (subarray header 124 136)
  failWhen (limits.maxFileBytes < size) (units "file exceeds limit: " ++ path)
  failWhen (limits.maxFiles ≤ extracted.files.size) (units "file count exceeds limit")
  failWhen (limits.maxTotalBytes < extracted.total + size) (units "total size exceeds limit")
  failWhen (tar.length < offset + 512 + size) (units "truncated file: " ++ path)
  failWhen (path ∈ extracted.files.keys) (units "duplicate path: " ++ path)
  failWhen (casePath host path ∈ extracted.casePaths) (units "case-colliding path: " ++ path)
  return (path, size)

def Extracted.add (host : Host) (extracted : Extracted) (path : Str) (size : Nat)
    (bytes : List UInt8) : Extracted where
  total := extracted.total + size
  files := extracted.files.set path bytes
  casePaths := casePath host path :: extracted.casePaths

/-- mirrors packages/extension-bundler/src/tar.ts:85-111 -/
def extractLoop (host : Host) (limits : ExtractionLimits) (tar : List UInt8) (offset : Nat)
    (extracted : Extracted) : Result Extracted :=
  if offset < tar.length then
    if tar.length < offset + 512 then fail (units "truncated tar header")
    else if (subarray tar offset (offset + 512)).all (· = 0) then
      if (tar.drop offset).any (· ≠ 0) then fail (units "data follows tar terminator")
      else .ok extracted
    else match readEntry host limits tar offset extracted with
      | .error message => .error message
      | .ok (path, size) =>
        let bodyStart := offset + 512
        let bytes := subarray tar bodyStart (bodyStart + size)
        extractLoop host limits tar (bodyStart + size + padding size)
          (extracted.add host path size bytes)
  else .ok extracted
termination_by tar.length - offset

/-- mirrors packages/extension-bundler/src/tar.ts:77-114 -/
def extractNormalizedTarGz (host : Host) (archive : List UInt8) (limits : ExtractionLimits) :
    Result (JsMap Str (List UInt8)) := do
  failWhen (limits.maxCompressedBytes < archive.length) (units "compressed size exceeds limit")
  match host.gunzipSync archive (limits.maxTotalBytes + limits.maxFiles * 1024 + 1024) with
  | none => fail (units "gzip payload is invalid or exceeds decompression limit")
  | some tar =>
    let extracted ← extractLoop host limits tar 0 ⟨0, .empty, []⟩
    failWhen (extracted.files.size = 0) (units "archive contains no files")
    return extracted.files

end KNex.Extensions.Tar
