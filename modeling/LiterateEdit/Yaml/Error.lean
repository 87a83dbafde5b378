import LiterateEdit.Text.Quoted

/-!
# Why a YAML document has no value

Most documents without a value are malformed: their characters, their structure or their tags make
no sense. A document can also be well formed and still hold a scalar that does not fit its type,
such as a thirteenth month; such errors are told in their own words. And there is a limit to how
deep collections may be nested.
-/

namespace LiterateEdit.Yaml

/-- Why a document has no value. -/
inductive Error where
  /-- The document is malformed. -/
  | malformed
  /-- A scalar does not fit its type, for the reason given. -/
  | unfit (reason : Text)
  /-- A scalar of the type of truth values is none of their names. -/
  | noTruthValue
  /-- A scalar of the type of points in time is not written like one. -/
  | noTimestamp
  /-- A number has no digits at all. -/
  | noDigits
  /-- The number of a character is too large to be handled. -/
  | hugeCharacter
  /-- Collections are nested too deep. -/
  | tooDeep
  deriving DecidableEq

end LiterateEdit.Yaml
