import TracingConsole.Model.Console
import TracingConsole.Model.LevelBus

/-!
# The colours of the stacks table

Each number of the table is coloured by how much it is of the greatest in its column, and no row
is to read as hotter than the row it hangs from.
-/

set_option autoImplicit false

namespace TracingConsole.Model

/-- INTERNAL: SRCLINE: table.rs:27-34 -/
inductive HeatColor where
  | cyan | green | yellow | orange | red
deriving DecidableEq

/-- INTERNAL: the colour of an intensity; the literals are `0.40`, `0.60`, `0.78`, `0.90` and
`0.99`.
SRCLINE: table.rs:36-53 -/
def heat (intensity : F64) : Option HeatColor :=
  if intensity.lt ⟨0x3FD999999999999A#64⟩ then none
  else if intensity.lt ⟨0x3FE3333333333333#64⟩ then some .cyan
  else if intensity.lt ⟨0x3FE8F5C28F5C28F6#64⟩ then some .green
  else if intensity.lt ⟨0x3FECCCCCCCCCCCCD#64⟩ then some .yellow
  else if intensity.lt ⟨0x3FEFAE147AE147AE#64⟩ then some .orange
  else some .red

/-- INTERNAL: `f64::min`. -/
def F64.min (x y : F64) : F64 :=
  if x.isNan then y else if y.isNan then x else if y.lt x then y else x

namespace StackStats

/-- INTERNAL: the averages; the sum is wider than a word.
SRCLINE: types.rs:20-34 -/
def totalAvgNs (s : StackStats) : ℕ :=
  if s.count = 0 then 0 else s.totalSumNs / s.count % 2 ^ 64

/-- INTERNAL: the average self time. -/
def selfAvgNs (s : StackStats) : ℕ :=
  if s.count = 0 then 0 else s.selfSumNs / s.count % 2 ^ 64

/-- INTERNAL: the numeric columns.
SRCLINE: table.rs:85-95 -/
def columns (s : StackStats) : Fin 7 → ℕ :=
  ![s.count, s.totalMinNs, s.totalAvgNs, s.totalMaxNs, s.selfMinNs, s.selfAvgNs, s.selfMaxNs]

end StackStats

/-- INTERNAL: SRCLINE: table.rs:96 -/
def columnMax (rows : List VisibleRow) (c : Fin 7) : ℕ :=
  (rows.map fun r => r.stats.columns c).foldl max 0

section Division

-- the quotient of two integers as doubles
variable (divide : ℕ → ℕ → F64)

/-- INTERNAL: SRCLINE: table.rs:102-106 -/
def selfIntensity (rows : List VisibleRow) (r : VisibleRow) (c : Fin 7) : F64 :=
  if columnMax rows c = 0 then F64.zero else divide (r.stats.columns c) (columnMax rows c)

/-- INTERNAL: the intensities of a row, when those of the rows before it are known; the rows to
come are at zero.
SRCLINE: table.rs:101-111 -/
def cappedRow (rows : List VisibleRow) (effective : List (Fin 7 → F64))
    (x : VisibleRow × Option ℕ) : Fin 7 → F64 := fun c =>
  match x.2 with
  | some p => (selfIntensity divide rows x.1 c).min ((effective[p]?.getD fun _ => F64.zero) c)
  | none => selfIntensity divide rows x.1 c

/-- INTERNAL: SRCLINE: table.rs:98-112 -/
def effectiveRows (rows : List VisibleRow) : List (Fin 7 → F64) :=
  (rows.zip (ConsoleModel.parentIndices rows)).foldl
    (fun effective x => effective ++ [cappedRow divide rows effective x]) []

/-- INTERNAL: the colours by row and column.
SRCLINE: table.rs:74-117 -/
def buildColorMap (rows : List VisibleRow) : List (Fin 7 → Option HeatColor) :=
  (effectiveRows divide rows).map fun row c => heat (row c)

end Division

end TracingConsole.Model
