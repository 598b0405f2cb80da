import AtomicCss.Document.Basic

/-!
# Why a YAML text is no document
-/
namespace AtomicCss.Yaml

inductive ReadError
  | malformed
  /-- The form is right, but something that is written cannot be made. -/
  | fault (e : DataFault)
  deriving DecidableEq

end AtomicCss.Yaml
