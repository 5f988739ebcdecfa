import CollectionTypes.Signature.Read

/-!
# The type of a text by its form

One equation for each form: the type of a text is put together from the types of its parts. A text
counts only by what is left of it without blanks at the ends and one optional marker.
-/

namespace CollectionTypes.Signature

/-- A property of an object literal, read. -/
def readProperty : Property Text → Property Signature
  | .typed name value => .typed name (read value)
  | .bare text => .bare text

theorem read_of_union {s : Text} {as : List Text} (h : Form.ofText s = .union as) :
    read s = .union (as.map read) := by
  rw [read]
  split
  next bs hb =>
    obtain rfl : bs = as := by simpa [h] using hb.symm
    rw [List.attach_map_val (f := read)]
  all_goals simp_all

theorem read_of_object {s : Text} {ps : List (Property Text)} (h : Form.ofText s = .object ps) :
    read s = .object (ps.map readProperty) := by
  rw [read]
  split
  next => simp_all
  next qs hq =>
    obtain rfl : qs = ps := by simpa [h] using hq.symm
    rw [← List.attach_map_val (f := readProperty)]
    congr 1
    apply List.map_congr_left
    rintro ⟨p, hp⟩ _
    cases p <;> rfl
  all_goals simp_all

theorem read_of_array {s e : Text} (h : Form.ofText s = .array e) :
    read s = .array (read e) := by
  rw [read]
  split
  case h_3 e' he =>
    obtain rfl : e' = e := by simpa [h] using he.symm
    rfl
  all_goals simp_all

theorem read_of_reference {s t : Text} (h : Form.ofText s = .reference t) :
    read s = .reference t := by
  rw [read]
  split <;> simp_all

theorem read_of_word {s w : Text} (h : Form.ofText s = .word w) : read s = ofWord w := by
  rw [read]
  split <;> simp_all

/-! ### Types -/

/-- The text of a property in an object type. -/
def propertyText (mode : Mode) : Property Text → Text
  | .typed name value => name ++ nameSeparator ++ typeText mode value
  | .bare text => text

theorem renderAll_eq_map (mode : Mode) (ss : List Signature) :
    renderAll mode ss = ss.map (render mode) := by
  induction ss with
  | nil => rfl
  | cons s ss ih => rw [renderAll, ih, List.map_cons]

theorem renderProperties_map_readProperty (mode : Mode) (ps : List (Property Text)) :
    renderProperties mode (ps.map readProperty) = ps.map (propertyText mode) := by
  induction ps with
  | nil => rfl
  | cons p ps ih =>
    rw [List.map_cons, List.map_cons, ← ih]
    cases p <;> rfl

theorem typeText_of_union (mode : Mode) {s : Text} {as : List Text}
    (h : Form.ofText s = .union as) :
    typeText mode s = Text.joined alternativeSeparator (as.map (typeText mode)) := by
  rw [typeText, read_of_union h, render, renderAll_eq_map, List.map_map]
  rfl

theorem typeText_of_object (mode : Mode) {s : Text} {ps : List (Property Text)}
    (h : Form.ofText s = .object ps) :
    typeText mode s = renderObject (ps.map (propertyText mode)) := by
  rw [typeText, read_of_object h, render, renderProperties_map_readProperty]

theorem typeText_of_array (mode : Mode) {s e : Text} (h : Form.ofText s = .array e) :
    typeText mode s = arrayOpening ++ typeText mode e ++ ['>'] := by
  rw [typeText, read_of_array h, render]
  rfl

theorem typeText_of_reference (mode : Mode) {s t : Text} (h : Form.ofText s = .reference t) :
    typeText mode s = renderReference mode t := by
  rw [typeText, read_of_reference h, render]

theorem typeText_of_word (mode : Mode) {s w : Text} (h : Form.ofText s = .word w) :
    typeText mode s = Scalar.typeOfWord w := by
  rw [typeText, read_of_word h, render_ofWord]

/-! ### What counts of a text -/

theorem ofText_congr {s t : Text} (h : (stripOptional s).1 = (stripOptional t).1) :
    Form.ofText s = Form.ofText t := by
  simp only [Form.ofText, h]

theorem typeText_congr (mode : Mode) {s t : Text}
    (h : (stripOptional s).1 = (stripOptional t).1) : typeText mode s = typeText mode t := by
  have hf := ofText_congr h
  cases ht : Form.ofText t with
  | union as => rw [typeText_of_union mode ht, typeText_of_union mode (hf.trans ht)]
  | object ps => rw [typeText_of_object mode ht, typeText_of_object mode (hf.trans ht)]
  | array e => rw [typeText_of_array mode ht, typeText_of_array mode (hf.trans ht)]
  | reference r => rw [typeText_of_reference mode ht, typeText_of_reference mode (hf.trans ht)]
  | word w => rw [typeText_of_word mode ht, typeText_of_word mode (hf.trans ht)]

end CollectionTypes.Signature
