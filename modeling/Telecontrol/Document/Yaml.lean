import Telecontrol.Document.Yaml.Value

/-! # YAML documents

A YAML document is written in lines or in brackets. A text with more than one document is refused,
and so is one whose root is not a map.

Main statement: `Yaml.read?_proper` (what is read is proper). -/

namespace Telecontrol.Yaml

/-- Read a YAML document. -/
def read? (text : String) : Option Document := do
  match ← NodeReader.root? (← tokens? text.toList) with
  | some (node, r) => root? r node
  | none => some (.map [])

/-- What is read is proper: no key comes twice in any of its maps. -/
theorem read?_proper {text : String} {d : Document} (h : read? text = some d) : d.Proper := by
  obtain ⟨tokens, -, h⟩ := Option.bind_eq_some_iff.mp h
  obtain ⟨root, -, h⟩ := Option.bind_eq_some_iff.mp h
  split at h
  · exact proper_root? h
  · exact Option.some.inj h ▸ Document.properFields_nil.proper

end Telecontrol.Yaml
