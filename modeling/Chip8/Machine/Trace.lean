import Chip8.Mnemonic
import Chip8.Processor.Snapshot

/-!
# Traces

A trace holds a record of each of the last cycles: where the cycle fetched its word from, the word
and what the processor was before and after. A cycle that failed in its fetch, in its decoding or
in its instruction is recorded with the reason, and with the state before it in both places.

A trace has a limit. When it is reached the oldest record makes room for the newest.
-/

namespace Chip8

open Text

/-- The record of one cycle. -/
structure Trace.Entry where
  /-- Where the word was fetched from. -/
  pc : Int
  /-- The word, unless the fetch failed. -/
  word : Option Word
  before : Snapshot
  after : Snapshot
  /-- Why the cycle failed, if it did. -/
  failure : Option String
  deriving DecidableEq, Repr

/-- Records of cycles, the oldest first. -/
structure Trace where
  entries : Array Trace.Entry
  /-- The greatest number of records that are kept. -/
  limit : Option Nat
  deriving Repr

namespace Trace

/-- The number of records that are kept unless told otherwise. -/
def defaultLimit : Nat := 1000

/-- The trace without records. -/
def withLimit (limit : Option Nat) : Trace := ⟨#[], limit⟩

/-- A reason why there is no trace of a given limit. -/
inductive Refusal where
  | negativeLimit
  /-- The limit is beyond the sizes that there are. -/
  | limitTooLarge
  deriving DecidableEq, Repr

/-- A refusal in words. -/
def Refusal.message : Refusal → String
  | negativeLimit => "maxlen must be non-negative"
  | limitTooLarge => "trace limit is too large"

/-- The trace without records of a given limit, if there is one. Without a limit all records are
kept. -/
def create : Option Int → Except Refusal Trace
  | none => .ok (withLimit none)
  | some n =>
    if n < -0x8000000000000000 ∨ 0x7FFFFFFFFFFFFFFF < n then .error .limitTooLarge
    else if n < 0 then .error .negativeLimit
    else .ok (withLimit (some n.toNat))

/-- The trace without its records. -/
def clear (t : Trace) : Trace := withLimit t.limit

/-- The trace with one more record. -/
def add (t : Trace) (e : Entry) : Trace :=
  let entries := t.entries.push e
  match t.limit with
  | none => { t with entries }
  | some n =>
    if entries.size ≤ n then { t with entries }
    else { t with entries := entries.extract (entries.size - n) entries.size }

/-- The reasons of the failures on record. -/
def failures (t : Trace) : List String :=
  t.entries.toList.filterMap (·.failure)

namespace Entry

/-- The number of the cycle, counted from zero. -/
def cycle (e : Entry) : Int := e.before.cycles

/-- The assembly text of the word. Without a word it is empty. -/
def mnemonic (e : Entry) : String :=
  match e.word with
  | some w => w.mnemonic
  | none => ""

/-- Address, word and assembly text. -/
def listing (e : Entry) : String :=
  match e.word with
  | some w => "0x" ++ hex 3 e.pc ++ ": " ++ hex 4 w.value ++ "  " ++ w.mnemonic
  | none => "0x" ++ hex 3 e.pc ++ ": ----"

/-- A record as lines: the listing, and what the cycle changed. -/
def lines (e : Entry) : List String :=
  let status := match e.failure with
    | none => "OK"
    | some reason => "ERROR: " ++ reason
  let changes := (e.before.changedRegisters e.after).map fun (name, old, new) =>
    name ++ ": " ++ hex 2 old.toNat ++ " -> " ++ hex 2 new.toNat
  ["", s!"[Cycle {e.cycle}] {status}", "  " ++ e.listing]
    ++ (if changes.isEmpty then [] else ["  Changes: " ++ ", ".intercalate changes])
    ++ (if e.before.index = e.after.index then []
        else ["  I: " ++ hex 3 e.before.index ++ " -> " ++ hex 3 e.after.index])
    ++ (if e.after.pc = e.pc + 2 then []
        else ["  PC: " ++ hex 3 e.pc ++ " -> " ++ hex 3 e.after.pc])

end Entry

/-- A line across the page. -/
def rule : String := String.ofList (List.replicate 70 '=')

/-- A trace as lines, with the processor at its end. -/
def lines (t : Trace) (p : Processor) : List String :=
  [rule, "CHIP-8 EXECUTION TRACE", rule]
    ++ t.entries.toList.flatMap Entry.lines
    ++ ["", rule, "FINAL STATE", rule, "  " ++ p.render]

end Trace

end Chip8
