import AgentPlatform.AdaptiveReply
import AgentPlatform.Governance
import AgentPlatform.Regex

/-!
# The patterns of the scanner

The rules of `governance.py` name their patterns by their sources. Here the sources are
compiled: `scannerPatterns` has an expression for each of them, and `sources_eq` says that
they are written as the rules have them. `reSearch` is `re.search` for these patterns, which
is all that `scanMessages` asks of the runtime.
-/

/-- A compiled pattern: an expression and the flag `(?i)`. -/
structure Pattern where
  ignoreCase : Bool := false
  regex : Regex
  deriving DecidableEq

/-- The source of a pattern. -/
def Pattern.source (p : Pattern) : String :=
  (if p.ignoreCase then "(?i)" else "") ++ p.regex.source

namespace ScanPatterns

open Regex

/-- As many of a set as there are. -/
def anyNumber (items : List ClassItem) : Regex := rep (char (.oneOf items)) 0 none false

/-- So many digits. -/
def digits (n : ℕ) : Regex := rep (char .digit) n (some n) false

/-- One of several alternatives. -/
def oneOfTexts (ss : List String) : Regex :=
  match ss.map text with
  | [] => empty
  | r :: rs => (r :: rs).dropLast.foldr alt ((r :: rs).getLast (List.cons_ne_nil r rs))

/-- `-----BEGIN [A-Z ]*PRIVATE KEY-----`. -/
def privateKeyBlock : Pattern where
  regex := concat [text "-----BEGIN ", anyNumber [.range 'A' 'Z', .one ' '],
    text "PRIVATE KEY-----"]

/-- `\bAKIA[0-9A-Z]{16}\b`. -/
def awsAccessKey : Pattern where
  regex := concat [boundary, text "AKIA",
    rep (char (.oneOf [.range '0' '9', .range 'A' 'Z'])) 16 (some 16) false, boundary]

/-- `\b(?:sk|rk|pk)-[A-Za-z0-9_-]{20,}\b`. -/
def assignedApiKey : Pattern where
  regex := concat [boundary, group false (oneOfTexts ["sk", "rk", "pk"]), text "-",
    rep (char (.oneOf [.range 'A' 'Z', .range 'a' 'z', .range '0' '9', .one '_', .one '-']))
      20 none false, boundary]

/-- The quotes of an assignment. -/
def quoteItems : List ClassItem := [.one '\'', .escaped '"']

/-- The assignment of a quoted text to something that is named like a credential. -/
def credentialAssignment : Pattern where
  ignoreCase := true
  regex := concat [boundary,
    group true (alt (concat [text "api", rep (char (.oneOf [.one '_', .one '-'])) 0 (some 1) false,
      text "key"]) (oneOfTexts ["secret", "password", "token"])),
    rep (char .space) 0 none false, char (.oneOf [.one '=', .one ':']),
    rep (char .space) 0 none false, char (.oneOf quoteItems),
    rep (char (.noneOf quoteItems)) 8 none false, char (.oneOf quoteItems)]

/-- An identity number: a region, a date of birth, a serial number and a check digit. -/
def mainlandIdNumber : Pattern where
  regex := concat [boundary, char (.oneOf [.range '1' '9']), digits 5,
    group false (oneOfTexts ["19", "20"]), digits 2,
    group false (alt (concat [text "0", char (.oneOf [.range '1' '9'])])
      (concat [text "1", char (.oneOf [.range '0' '2'])])),
    group false (alt (concat [text "0", char (.oneOf [.range '1' '9'])])
      (alt (concat [char (.oneOf [.one '1', .one '2']), char .digit])
        (concat [text "3", char (.oneOf [.one '0', .one '1'])]))),
    digits 3, char (.oneOf [.digit, .one 'X', .one 'x']), boundary]

/-- `\b(?:\d[ -]*?){13,19}\b`. -/
def paymentCardNumber : Pattern where
  regex := concat [boundary,
    rep (group false (concat [char .digit, rep (char (.oneOf [.one ' ', .one '-'])) 0 none true]))
      13 (some 19) false, boundary]

/-- `\b1[3-9]\d{9}\b`. -/
def mainlandPhoneNumber : Pattern where
  regex := concat [boundary, text "1", char (.oneOf [.range '3' '9']), digits 9, boundary]

end ScanPatterns

open ScanPatterns

/-- **The compiled patterns of the rules**, in their order. -/
def scannerPatterns : List Pattern :=
  [privateKeyBlock, awsAccessKey, assignedApiKey, credentialAssignment, mainlandIdNumber,
    paymentCardNumber, mainlandPhoneNumber]

/-- The rules of the scanner. -/
def scannerRules : List DetectionRule := secretDetectionRules ++ dlpRules

theorem sources_eq :
    scannerPatterns.map Pattern.source = scannerRules.map DetectionRule.pattern := by
  decide +kernel

/-- `re.compile`, of the patterns of the rules. -/
def reCompile (pattern : String) : Option Pattern :=
  scannerPatterns.find? (fun p => p.source = pattern)

/-- **`re.search`**, of the patterns of the rules. -/
def reSearch (T : CharTables) (pattern content : String) : Bool :=
  (reCompile pattern).any (fun p => p.regex.search T p.ignoreCase content.toList)

/-- **The pattern of a rule matches inside a text**: `s` after `pre` and before `post`. -/
def DetectionRule.MatchesAt (T : CharTables) (rule : DetectionRule) (pre s post : Text) : Prop :=
  ∃ p, reCompile rule.pattern = some p ∧ p.regex.MatchesAt T p.ignoreCase pre s post

/-- The pattern of a rule matches somewhere in a text. -/
def DetectionRule.FoundIn (T : CharTables) (rule : DetectionRule) (t : Text) : Prop :=
  ∃ pre s post, t = pre ++ s ++ post ∧ rule.MatchesAt T pre s post

/-- `re.search` finds what matches. -/
theorem reSearch_iff {T : CharTables} {rule : DetectionRule} {content : String} :
    reSearch T rule.pattern content = true ↔ rule.FoundIn T content.toList := by
  unfold reSearch DetectionRule.FoundIn DetectionRule.MatchesAt
  cases hcompiled : reCompile rule.pattern with
  | none => simp
  | some p =>
    rw [Option.any_some, Regex.search_iff]
    constructor
    · rintro ⟨pre, s, post, ht, hmatch⟩
      exact ⟨pre, s, post, ht, p, rfl, hmatch⟩
    · rintro ⟨pre, s, post, ht, q, hq, hmatch⟩
      obtain rfl := Option.some.inj hq
      exact ⟨pre, s, post, ht, hmatch⟩

/-! ## ASCII -/

/-- The tables, as far as ASCII goes. -/
def asciiTables : CharTables where
  isWord c := c.isAlphanum || c = '_'
  isDigit := Char.isDigit
  isSpace := Text.isSpace
  variants c := [c.toLower, c.toUpper]
