import Harp.Gateway.Wire
import Harp.Lib.Masking
import Harp.Lib.Text

/-
  The default redactor (`src/gateway/redaction/Redactor.ts`).

  A rule replaces every match of its pattern by its token. The default redactor runs seven
  rules, one after the other, each on the text that the one before it leaves.
-/

namespace Harp

/-! ## Character classes -/

namespace Redactor

/-- `\d` -/
def digit (c : Char) : Bool := c.isDigit

/-- `\w` -/
def word (c : Char) : Bool := c.isAlphanum || c == '_'

/-- `[A-Za-z0-9]` -/
def alnum (c : Char) : Bool := c.isAlphanum

/-- `[A-Z0-9]` -/
def upperAlnum (c : Char) : Bool := c.isUpper || c.isDigit

/-- `[A-Za-z0-9-]` -/
def alnumDash (c : Char) : Bool := c.isAlphanum || c == '-'

/-- `[A-Za-z0-9._%+-]` -/
def localPart (c : Char) : Bool :=
  c.isAlphanum || c == '.' || c == '_' || c == '%' || c == '+' || c == '-'

/-- `[A-Za-z0-9.-]` -/
def domain (c : Char) : Bool := c.isAlphanum || c == '.' || c == '-'

/-- `[A-Za-z0-9._\-]` -/
def bearerChar (c : Char) : Bool := c.isAlphanum || c == '.' || c == '_' || c == '-'

/-- `[\d\s().-]` -/
def phoneChar (c : Char) : Bool :=
  digit c || Js.isSpace c || c == '(' || c == ')' || c == '.' || c == '-'

/-- `[ -]` -/
def separator (c : Char) : Bool := c == ' ' || c == '-'

/-! ## Patterns -/

def chr (c : Char) : Regex Char := .cls (· == c)

/-- A letter under the flag `i`. -/
def chrIgnoreCase (c : Char) : Regex Char := .cls (·.toLower == c)

/-- The characters, one after the other, and then `r`. -/
def text (f : Char → Regex Char) (cs : List Char) (r : Regex Char) : Regex Char :=
  cs.foldr (fun c => .seq (f c)) r

/-- `p{min,}` -/
def atLeast (min : Nat) (p : Char → Bool) : Regex Char := .rep (.cls p) min none

/-- `p{min,max}` -/
def between (min max : Nat) (p : Char → Bool) : Regex Char := .rep (.cls p) min (some max)

end Redactor

open Redactor

structure Rule where
  kind : String
  pattern : Pattern Char
  /-- A label, never the value. -/
  token : String

namespace Rule

/-- `/[A-Za-z0-9._%+-]+@[A-Za-z0-9.-]+\.[A-Za-z]{2,}/g` -/
def email : Rule where
  kind := "email"
  pattern := {
    before := .always
    body := .seq (atLeast 1 localPart) (.seq (chr '@') (.seq (atLeast 1 domain)
      (.seq (chr '.') (atLeast 2 Char.isAlpha))))
    after := .always
    proper := rfl
    nonempty := rfl }
  token := "[REDACTED_EMAIL]"

/-- `/(?<!\w)(\+?\d[\d\s().-]{6,}\d)(?!\w)/g` -/
def phone : Rule where
  kind := "phone"
  pattern := {
    before := .notBehind word
    body := .seq (between 0 1 (· == '+')) (.seq (.cls digit) (.seq (atLeast 6 phoneChar)
      (.cls digit)))
    after := .notAhead word
    proper := rfl
    nonempty := rfl }
  token := "[REDACTED_PHONE]"

/-- `/(?<!\d)(?:\d[ -]?){13,16}(?!\d)/g` -/
def creditCard : Rule where
  kind := "credit_card"
  pattern := {
    before := .notBehind digit
    body := .rep (.seq (.cls digit) (between 0 1 separator)) 13 (some 16)
    after := .notAhead digit
    proper := rfl
    nonempty := rfl }
  token := "[REDACTED_CC]"

/-- `/(?<!\d)\d{3}-\d{2}-\d{4}(?!\d)/g` -/
def ssn : Rule where
  kind := "ssn"
  pattern := {
    before := .notBehind digit
    body := .seq (between 3 3 digit) (.seq (chr '-') (.seq (between 2 2 digit) (.seq (chr '-')
      (between 4 4 digit))))
    after := .notAhead digit
    proper := rfl
    nonempty := rfl }
  token := "[REDACTED_SSN]"

/-- `/(?<!\d)(?:\d{1,3}\.){3}\d{1,3}(?!\d)/g` -/
def ip : Rule where
  kind := "ip"
  pattern := {
    before := .notBehind digit
    body := .seq (.rep (.seq (between 1 3 digit) (chr '.')) 3 (some 3)) (between 1 3 digit)
    after := .notAhead digit
    proper := rfl
    nonempty := rfl }
  token := "[REDACTED_IP]"

/-- `/\b(?:sk-[A-Za-z0-9]{16,}|ghp_[A-Za-z0-9]{20,}|AKIA[A-Z0-9]{12,}|`
    `xox[baprs]-[A-Za-z0-9-]{10,})\b/g`, one expression -/
def secretToken : Rule where
  kind := "secret_token"
  pattern := {
    before := .boundary word
    body := .alt (text chr ['s', 'k', '-'] (atLeast 16 alnum))
      (.alt (text chr ['g', 'h', 'p', '_'] (atLeast 20 alnum))
        (.alt (text chr ['A', 'K', 'I', 'A'] (atLeast 12 upperAlnum))
          (text chr ['x', 'o', 'x'] (.seq (.cls ['b', 'a', 'p', 'r', 's'].contains)
            (.seq (chr '-') (atLeast 10 alnumDash))))))
    after := .boundary word
    proper := rfl
    nonempty := rfl }
  token := "[REDACTED_SECRET]"

/-- `/\bBearer\s+[A-Za-z0-9._\-]+/gi` -/
def bearer : Rule where
  kind := "bearer"
  pattern := {
    before := .boundary word
    body := text chrIgnoreCase ['b', 'e', 'a', 'r', 'e', 'r']
      (.seq (atLeast 1 Js.isSpace) (atLeast 1 bearerChar))
    after := .always
    proper := rfl
    nonempty := rfl }
  token := "[REDACTED_BEARER]"

/-- `working.replace(rule.pattern, …)`, with how often the callback is called. -/
def replace (rule : Rule) (working : String) : String × Nat :=
  (String.ofList (rule.pattern.replaceAll (fun _ => rule.token.toList) working.toList),
    (rule.pattern.cut working.toList).countP Piece.isHit)

end Rule

/-- `DEFAULT_RULES` -/
def defaultRules : List Rule :=
  [.email, .phone, .creditCard, .ssn, .ip, .secretToken, .bearer]

namespace DefaultRedactor

/-- The default rules in the order in which they run: secrets and structured ids come before
    the broad phone rule. -/
def rules (extraRules : List Rule) : List Rule :=
  [.ip, .secretToken, .bearer, .email, .ssn, .creditCard, .phone] ++ extraRules

def redactStep (acc : RedactionResult) (rule : Rule) : RedactionResult where
  text := (rule.replace acc.text).1
  findings :=
    if (rule.replace acc.text).2 > 0 then
      acc.findings ++ [{ kind := rule.kind, count := (rule.replace acc.text).2 }]
    else acc.findings

/-- `new DefaultRedactor(extraRules).redact(text)`. -/
def redact (extraRules : List Rule) (text : String) : RedactionResult :=
  (rules extraRules).foldl redactStep { text := text, findings := [] }

end DefaultRedactor

/-- `NoopRedactor.redact`. -/
def NoopRedactor.redact (text : String) : RedactionResult where
  text := text
  findings := []

end Harp
