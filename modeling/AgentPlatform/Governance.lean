import AgentPlatform.ExecutionStore

/-!
# Scanning outbound content

Before a message leaves the platform it is screened: a pattern that looks like
a secret blocks the call, and a pattern of personal or payment data raises the
classification the call is judged by. `scanMessages` is that screening, over
the rules of `governance.py`.

The regular expressions are kept as their sources; what it means for one to be
found in a text is the parameter `search`, the `re.search` of the platform's
runtime.
-/

/-- **`highest_classification`**: the highest of the levels present. Detection
may only raise a classification. -/
def highestClassification (classifications : List (Option DataClassification)) :
    DataClassification :=
  classifications.foldl (fun highest candidate => match candidate with
    | none => highest
    | some value => if highest.rank < value.rank then value else highest) .PUBLIC

/-- A rule of the scanner. -/
structure DetectionRule where
  name : String
  pattern : String
  classification : Option DataClassification := none

/-- What looks like a secret. -/
def secretDetectionRules : List DetectionRule :=
  [{ name := "private-key-block"
     pattern := "-----BEGIN [A-Z ]*PRIVATE KEY-----" },
   { name := "aws-access-key"
     pattern := "\\bAKIA[0-9A-Z]\x7b16\x7d\\b" },
   { name := "assigned-api-key"
     pattern := "\\b(?:sk|rk|pk)-[A-Za-z0-9_-]\x7b20,\x7d\\b" },
   { name := "credential-assignment"
     pattern := "(?i)\\b(api[_-]?key|secret|password|token)\\s*[=:]\\s*"
       ++ "['\\\"][^'\\\"]\x7b8,\x7d['\\\"]" }]

/-- What raises the classification of a message. -/
def dlpRules : List DetectionRule :=
  [{ name := "mainland-id-number"
     pattern := "\\b[1-9]\\d\x7b5\x7d(?:19|20)\\d\x7b2\x7d(?:0[1-9]|1[0-2])"
       ++ "(?:0[1-9]|[12]\\d|3[01])\\d\x7b3\x7d[\\dXx]\\b"
     classification := some .CONFIDENTIAL },
   { name := "payment-card-number"
     pattern := "\\b(?:\\d[ -]*?)\x7b13,19\x7d\\b"
     classification := some .CONFIDENTIAL },
   { name := "mainland-phone-number"
     pattern := "\\b1[3-9]\\d\x7b9\x7d\\b"
     classification := some .INTERNAL }]

/-- What a scan found. -/
structure ContentScanResult where
  detectedSecrets : List String
  detectedClassification : DataClassification

/-- A message with a secret in it is blocked. -/
def ContentScanResult.blocked (scan : ContentScanResult) : Bool :=
  !scan.detectedSecrets.isEmpty

section Scan

variable (search : String → String → Bool)

/-- The secrets found in one serialized message. -/
def secretsIn (content : String) : List String :=
  (secretDetectionRules.filter (fun rule => search rule.pattern content)).map
    DetectionRule.name

/-- The classification after one serialized message. -/
def classifyContent (detected : DataClassification) (content : String) :
    DataClassification :=
  dlpRules.foldl (fun detected rule =>
    if rule.classification.isSome && search rule.pattern content then
      highestClassification [some detected, rule.classification]
    else detected) detected

/-- **`scan_messages`**: the whole payload of a message is serialized, so that
structured fields are screened like free text. -/
def scanMessages (messages : List Json) : ContentScanResult where
  detectedSecrets := messages.flatMap (fun message => secretsIn search message.text)
  detectedClassification := messages.foldl
    (fun detected message => classifyContent search detected message.text) .PUBLIC

end Scan
