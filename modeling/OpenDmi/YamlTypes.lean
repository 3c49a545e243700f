import OpenDmi.PatternSymbols
import OpenDmi.Replacement

namespace OpenDmi

open Bytes Pattern RegularExpression

inductive YamlKind
  | null | bool | merge | value
  | intBinary | intOctal | intDecimal | intHex | intBase60
  | floatDecimal | floatBase60 | infinity | nan
  | timestamp
  deriving DecidableEq

section Patterns

def yamlOneOf (text : String) : RegularExpression Byte := oneOf (stringBytes text)

def yamlWord (text : String) : RegularExpression Byte := Pattern.word (stringBytes text)

def yamlAnyOf (texts : List String) : RegularExpression Byte := anyOf (texts.map stringBytes)

def yamlSign : RegularExpression Byte := optional (yamlOneOf "+-")

def yamlDigit : RegularExpression Byte := yamlOneOf "0123456789"

def yamlDigits : RegularExpression Byte := (yamlOneOf "0123456789_").star

def yamlSixties : RegularExpression Byte :=
  many1 (yamlWord ":" * (optional (yamlOneOf "012345") * yamlDigit))

def yamlTwoDigits : RegularExpression Byte := yamlDigit * yamlDigit

def yamlOneOrTwo : RegularExpression Byte := yamlDigit * optional yamlDigit

def yamlYear : RegularExpression Byte := yamlTwoDigits * yamlTwoDigits

def yamlDate : RegularExpression Byte :=
  yamlYear * (yamlWord "-" * (yamlTwoDigits * (yamlWord "-" * yamlTwoDigits)))

def yamlZone : RegularExpression Byte :=
  (yamlOneOf " \t").star * yamlWord "Z" +
    yamlOneOf "+-" * (yamlOneOrTwo * optional (yamlWord ":" * yamlTwoDigits))

def yamlDateTime : RegularExpression Byte :=
  yamlYear * (yamlWord "-" * (yamlOneOrTwo * (yamlWord "-" * (yamlOneOrTwo *
    ((yamlOneOf "Tt" + many1 (yamlOneOf " \t")) * (yamlOneOrTwo * (yamlWord ":" *
      (yamlTwoDigits * (yamlWord ":" * (yamlTwoDigits *
        (optional (yamlWord "." * yamlDigit.star) * optional yamlZone)))))))))))

def yamlPattern : YamlKind → RegularExpression Byte
  | .null => yamlAnyOf ["", "~", "null", "Null", "NULL"]
  | .bool => yamlAnyOf ["y", "Y", "yes", "Yes", "YES", "n", "N", "no", "No", "NO", "true", "True",
      "TRUE", "false", "False", "FALSE", "on", "On", "ON", "off", "Off", "OFF"]
  | .merge => yamlAnyOf ["<<"]
  | .value => yamlAnyOf ["="]
  | .intBinary => yamlSign * (yamlWord "0b" * many1 (yamlOneOf "01_"))
  | .intOctal => yamlSign * (yamlWord "0" * many1 (yamlOneOf "01234567_"))
  | .intDecimal => yamlSign * (yamlWord "0" + yamlOneOf "123456789" * yamlDigits)
  | .intHex => yamlSign * (yamlWord "0x" * many1 (yamlOneOf "0123456789abcdefABCDEF_"))
  | .intBase60 => yamlSign * (yamlOneOf "123456789" * (yamlDigits * yamlSixties))
  | .floatDecimal => yamlSign * (optional (yamlDigit * yamlDigits) * (yamlWord "." *
      ((yamlOneOf "0123456789.").star * optional (yamlOneOf "eE" * (yamlOneOf "+-" *
        many1 yamlDigit)))))
  | .floatBase60 => yamlSign * (yamlDigit * (yamlDigits * (yamlSixties * (yamlWord "." *
      yamlDigits))))
  | .infinity => yamlSign * (yamlWord "." * yamlAnyOf ["inf", "Inf", "INF"])
  | .nan => yamlWord "." * yamlAnyOf ["nan", "NaN", "NAN"]
  | .timestamp => yamlDate + yamlDateTime

end Patterns

/-- A plain scalar is of a type where its pattern matches; it is a string where none does. -/
def yamlIs (kind : YamlKind) (text : List Byte) : Prop := text ∈ (yamlPattern kind).matches'

instance (kind : YamlKind) (text : List Byte) : Decidable (yamlIs kind text) :=
  inferInstanceAs (Decidable (text ∈ (yamlPattern kind).matches'))

example : yamlIs .floatDecimal (stringBytes "-12.50e+3") := by decide +kernel
example : ¬ yamlIs .intDecimal (stringBytes "012") ∧ yamlIs .intOctal (stringBytes "012") := by
  decide +kernel

end OpenDmi
