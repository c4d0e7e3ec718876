import DocShape.Proofs.Host
import DocShape.Proofs.Yaml
import DocShape.Reference

/-!
# The host that the program runs on is lawful

The lenient readers of this library take plain values as they are and no containers, and its loader of
YAML gives no dictionary with a key twice.
-/

namespace DocShape

namespace Reference

/-- The host that the program runs on is lawful. -/
scoped instance lawful : LawfulHost where
  flag_bool _ := rfl
  flag_integral integral worth := by simp only [Host.flag, Coercion.flag, worth, integral]; rfl
  flag_container {v} container := by cases v <;> first | rfl | cases container
  number_ofNumber n := by cases n <;> rfl
  number_container {v} container := by cases v <;> first | rfl | cases container
  text_str _ := rfl
  keyed_yaml loaded := Yaml.keyed_read _ _ loaded
  guard_le_nesting := by decide

end Reference

end DocShape
