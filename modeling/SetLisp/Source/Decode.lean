import SetLisp.Text.Lines
import SetLisp.Text.Utf8

/-!
# Decoding a source file

The bytes of a file are decoded block by block, a character cut in two by the end of a block going
over to the next one. Lines are handed on as soon as their end is known, so the lines closed in
the blocks before a fault are read and those of the faulty block are not. The place of a fault is
counted from the start of its block, bytes carried over included; a file that ends inside a
character is at fault where that character starts.
-/

namespace SetLisp

def blockSize : Nat := 8192

/-- Cuts bytes into blocks; the first argument is the room left in the open block. -/
def cutBlocks (size : Nat) : Nat → List UInt8 → List UInt8 → List (List UInt8)
  | _, open_, [] => if open_.isEmpty then [] else [open_.reverse]
  | 0, open_, byte :: rest => open_.reverse :: cutBlocks size (size - 1) [byte] rest
  | room + 1, open_, byte :: rest => cutBlocks size room (byte :: open_) rest

def blocksOf (bytes : List UInt8) : List (List UInt8) :=
  cutBlocks blockSize blockSize [] bytes

/-- The lines a file yields and the fault that ends it, if there is one. -/
structure DecodedSource where
  lines : List (List Char)
  fault? : Option Text.Utf8Fault := none

/-- What is left of a source when `text` is decoded and a fault comes next. -/
def DecodedSource.cutShort (text : List Char) (fault : Text.Utf8Fault) : DecodedSource :=
  { lines := Text.linesOf Text.isFileBreak (Text.closedPart Text.isFileBreak text)
    fault? := some fault }

/-- Decodes the blocks that follow `text`, the last character of which may be unfinished. -/
def decodeBlocks (text : List Char) (held : Option Text.Utf8Partial) :
    List (List UInt8) → DecodedSource
  | [] =>
      match held with
      | none => { lines := Text.linesOf Text.isFileBreak text }
      | some sequence => .cutShort text ⟨0, sequence.bytes, .unexpectedEnd⟩
  | block :: rest =>
      let start := (held.map (·.bytes.length)).getD 0
      match Text.decodeRun start held block with
      | (chars, .whole) => decodeBlocks (text ++ chars) none rest
      | (chars, .unfinished sequence) => decodeBlocks (text ++ chars) (some sequence) rest
      | (chars, .cutSurrogate) => .cutShort (text ++ chars) ⟨0, [0xED], .invalidContinuation⟩
      | (_, .faulty fault) => .cutShort text fault

def decodeSource (bytes : List UInt8) : DecodedSource :=
  decodeBlocks [] none (blocksOf bytes)

end SetLisp
