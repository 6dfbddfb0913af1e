import Calculator.Text.Blank
import Calculator.Text.Unprintable
import Calculator.Text.Quoted
import Calculator.Glyph
import Calculator.Decimal
import Calculator.Decimal.Significant
import Calculator.Decimal.Written
import Calculator.Double.Ordinal
import Calculator.Double.Nearest
import Calculator.Double.Shortest
import Calculator.Double.Text
import Calculator.Numeral
import Calculator.Token
import Calculator.Token.Lexer
import Calculator.Token.Piece
import Calculator.Operator
import Calculator.AngleMode
import Calculator.NamedFunction
import Calculator.Constant
import Calculator.Postfix
import Calculator.EvalError
import Calculator.Evaluation
import Calculator.Display
import Calculator.Draw
import Calculator.Registers
import Calculator.Panel
import Calculator.Keypad
import Calculator.History
import Calculator.Expression
import Calculator.Infix
import Calculator.Shape
import Calculator.Proofs.NumeralScan
import Calculator.Proofs.TokenScan
import Calculator.Proofs.PlainText
import Calculator.Proofs.NumberText
import Calculator.Proofs.OperatorStack
import Calculator.Proofs.TreeValues
import Calculator.Proofs.StrayParens
import Calculator.Proofs.PostfixOrder
import Calculator.Proofs.OperandCount
import Calculator.Proofs.TypedRows
import Calculator.Proofs.DoubleBits
import Calculator.Proofs.NearestDouble
import Calculator.Proofs.ShortestText
import Calculator.Proofs.RecalledAnswer
import Calculator.Proofs.RunShape
import Calculator.Proofs.WaitingMinus
import Calculator.Proofs.LexerRules
import Calculator.Proofs.RegisterSteps
import Calculator.Proofs.RegisterHistory
import Calculator.Proofs.RecallRoundTrip
import Calculator.Proofs.ResultLine
import Calculator.Proofs.DoubleSums
import Calculator.Proofs.ZeroSums
import Calculator.Proofs.RegisterBounds
import Calculator.Proofs.TokenSources
import Calculator.Proofs.ErrorCauses
import Calculator.Proofs.EnvironmentUse
import Calculator.Proofs.DoubleOrder
import Calculator.Proofs.SignificantDigits
import Calculator.Proofs.NearestValue
import Calculator.Proofs.FifteenDigits
import Calculator.Proofs.ResultDigits
import Calculator.Proofs.NumeralSpelling
import Calculator.Proofs.ResultSpelling
import Calculator.Proofs.ResultOrder
import Calculator.Proofs.RoundedAgain
import Calculator.Proofs.TypedResult
import Calculator.Proofs.ParenGroups
import Calculator.Proofs.BareRoot
import Calculator.Proofs.LetterCase
import Calculator.Proofs.ShiftRuns
import Calculator.Proofs.KeypadClicks
import Calculator.Proofs.PiSign
import Calculator.Proofs.CommaGroups
