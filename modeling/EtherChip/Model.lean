import EtherChip.Text.Blank

/-!
# Chip models

The two controllers differ in their framing and in their common registers. A model has a one-byte
code in save files, a printed name, and the spellings that a user may type for it.
-/
namespace EtherChip

inductive ChipModel where
  /-- Four-byte frames with one data byte each. -/
  | w5100
  /-- An address and a control byte, then a burst of any length. -/
  | w5500
  deriving DecidableEq, Repr, Inhabited

namespace ChipModel

def code : ChipModel → UInt8
  | w5100 => 0
  | w5500 => 1

def ofCode? (b : UInt8) : Option ChipModel :=
  if b = 0 then some w5100 else if b = 1 then some w5500 else none

@[simp] theorem ofCode?_code (m : ChipModel) : ofCode? m.code = some m := by
  cases m <;> rfl

theorem ofCode?_eq_some_iff {b : UInt8} {m : ChipModel} : ofCode? b = some m ↔ b = m.code := by
  unfold ofCode?
  cases m <;> split <;> simp_all [code]

def name : ChipModel → String
  | w5100 => "W5100"
  | w5500 => "W5500"

/-- A typed name: surrounding white space, the case of ASCII letters and leading letters w do not
count, and the rest is the model's number. -/
def parse? (s : String) : Option ChipModel :=
  let number := ((Text.trim s.toList).map Char.toLower).dropWhile (· == 'w')
  if number = ['5', '1', '0', '0'] then some w5100
  else if number = ['5', '5', '0', '0'] then some w5500
  else none

end ChipModel

end EtherChip
