import DocShape.Host
import DocShape.Proofs.Value.Parts

/-!
# Lawful hosts

What results rely on of the surroundings of the program: a property that needs no coercion is taken as
it is, a double without a fraction spells the same truth value as its integer, a container is neither a
number nor a truth value, what YAML holds is a value of the language, and typed models nest no deeper
than documents. Nothing is said of what else the lenient readers take, of which texts the loader refuses,
or of the words that either uses.
-/

namespace DocShape

/-- A list, a tuple, a set or a dictionary. -/
def Value.IsContainer : Value → Prop
  | list _ | tuple _ | set _ | dict _ => True
  | _ => False

/-- A host that takes plain values as they are and loads values. -/
class LawfulHost [Host] : Prop where
  /-- A truth value is taken as it is. -/
  flag_bool (b : Bool) : Host.flag (.bool b) = .ok b
  /-- A double without a fraction spells the same truth value as its integer. -/
  flag_integral {x : Binary64} {n : Int} (integral : x.isIntegral = true)
    (worth : x.truncate? = some n) : Host.flag (.float x) = Host.flag (.int n)
  /-- A container is no truth value. -/
  flag_container {v : Value} (container : v.IsContainer) : Host.flag v = .error .notFlag
  /-- A number is taken as it is, an integer as an integer and a double as a double. -/
  number_ofNumber (n : Number) : Host.number (.ofNumber n) = .ok n
  /-- A container is no number. -/
  number_container {v : Value} (container : v.IsContainer) : Host.number v = .error .notInteger
  /-- A text is taken as it is. -/
  text_str (t : Text) : Host.text (.str t) = .ok t
  /-- No dictionary that is loaded has a key twice. -/
  keyed_yaml {t : Text} {v : Value} (loaded : Host.yaml t = .ok v) : v.Keyed
  /-- Typed models nest no deeper than documents may. -/
  guard_le_nesting : Host.guard ≤ Host.nesting

end DocShape
