/-
The settings of a calculator.
-/

namespace Keypad

structure Settings where
  /-- What the display shows in place of a result when an expression cannot
  be solved. -/
  errorMarker : String
  /-- Whether the postfix order of each expression is reported before it is
  solved. -/
  showPostfix : Bool
  deriving Repr, DecidableEq

def Settings.default : Settings := ⟨"ERROR", false⟩

end Keypad
