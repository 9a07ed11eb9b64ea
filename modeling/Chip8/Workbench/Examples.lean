/-!
# Example programs

Programs to start from at the workbench, each under its name. The last one is empty.
-/

namespace Chip8.Workbench

/-- Counts through the hexadecimal digits and draws them in two rows. -/
def hexDigitsSource : String := "\n".intercalate [
  "    LD V0, 0        ; digit",
  "    LD V1, 1        ; x",
  "    LD V2, 1        ; y",
  "loop:",
  "    LD F, V0        ; I = glyph for V0",
  "    DRW V1, V2, 5",
  "    ADD V0, 1",
  "    ADD V1, 6",
  "    SE V0, 10       ; second row after 9",
  "    JP next",
  "    LD V1, 1",
  "    LD V2, 8",
  "next:",
  "    SE V0, 16",
  "    JP loop",
  "done:",
  "    JP done"]

/-- Splits a number into its decimal digits and draws them. -/
def decimalSource : String := "\n".intercalate [
  "    LD V0, 137",
  "    LD I, digits",
  "    LD B, V0        ; 1, 3, 7 at digits",
  "    LD V2, [I]      ; V0..V2 = digits",
  "    LD V3, 20       ; x",
  "    LD V4, 12       ; y",
  "    LD F, V0",
  "    DRW V3, V4, 5",
  "    ADD V3, 6",
  "    LD F, V1",
  "    DRW V3, V4, 5",
  "    ADD V3, 6",
  "    LD F, V2",
  "    DRW V3, V4, 5",
  "done:",
  "    JP done",
  "digits:",
  "    DB 0, 0, 0"]

/-- Moves a box over the screen at the pace of the delay timer. -/
def boxSource : String := "\n".intercalate [
  "    LD I, box",
  "    LD V0, 0        ; x",
  "    LD V1, 0        ; y",
  "    LD V2, 1        ; dx",
  "    DRW V0, V1, 4",
  "loop:",
  "    DRW V0, V1, 4   ; erase",
  "    ADD V0, V2",
  "    ADD V1, 1",
  "    DRW V0, V1, 4   ; draw",
  "    LD V3, 3",
  "    LD DT, V3",
  "wait:",
  "    LD V3, DT",
  "    SE V3, 0",
  "    JP wait",
  "    JP loop",
  "box:",
  "    DB 0xF0, 0x90, 0x90, 0xF0"]

/-- The examples with their names. -/
def examples : List (String × String) := [
  ("Hex digits", hexDigitsSource),
  ("BCD of 137", decimalSource),
  ("Bouncing box", boxSource),
  ("Custom", "")]

/-- The example of a given name. Other names have an empty one. -/
def exampleSource (name : String) : String :=
  (examples.lookup name).getD ""

end Chip8.Workbench
