import Keypad.Expr.Grouping
import Keypad.Expr.Layered
import Keypad.Main
import Keypad.Numeral.Scan
import Keypad.Proofs.Reduction
import Keypad.Proofs.Grouping
import Keypad.Proofs.Layers
import Keypad.Proofs.KeyTexts
import Keypad.Proofs.Keystrokes
import Keypad.Proofs.Solving
import Keypad.Proofs.Rounding
import Keypad.Proofs.Words
import Keypad.Proofs.Decimals
import Keypad.Proofs.Literals
import Keypad.Proofs.NumberTexts
import Keypad.Proofs.Retyping
import Keypad.Proofs.EarlySolving
import Keypad.Proofs.Arguments
import Keypad.Proofs.SolvingAgain
import Keypad.Proofs.Renderings
import Keypad.Proofs.Independence
import Keypad.Proofs.InputLines
import Keypad.Proofs.Operands
import Keypad.Proofs.Scanning
import Keypad.Proofs.Values
import Keypad.Proofs.Nearest
import Keypad.Proofs.ShortestDigits
import Keypad.Proofs.ShownDigits
import Keypad.Proofs.LiteralValues
import Keypad.Proofs.Conservation
import Keypad.Proofs.Spacing
import Keypad.Proofs.TableHistories
import Keypad.Proofs.DocumentKeys
import Keypad.Proofs.Conventions
import Keypad.Proofs.EffectiveSettings
import Keypad.Proofs.Strokes
import Keypad.Proofs.Characters
import Keypad.Proofs.LogRecords
import Keypad.Proofs.Logging
import Keypad.Proofs.Markers
import Keypad.Proofs.PendingOrder
