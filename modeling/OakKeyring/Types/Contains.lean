import OakKeyring.Types.Listing

/-!
# Texts in texts
-/

namespace OakKeyring

theorem containsText_iff {text pattern : String} :
    containsText text pattern = true ↔ pattern.toList <:+: text.toList :=
  decide_eq_true_iff

theorem containsText_self (text : String) : containsText text text = true :=
  containsText_iff.mpr List.infix_rfl

theorem containsText_trans {a b c : String} (h : containsText a b = true)
    (h' : containsText b c = true) : containsText a c = true :=
  containsText_iff.mpr ((containsText_iff.mp h').trans (containsText_iff.mp h))

theorem containsText_append_left (a b : String) : containsText (a ++ b) a = true := by
  apply containsText_iff.mpr
  rw [String.toList_append]
  exact List.infix_append_left

theorem containsText_append_right (a b : String) : containsText (a ++ b) b = true := by
  apply containsText_iff.mpr
  rw [String.toList_append]
  exact List.infix_append_right

/-- The empty text contains no other. -/
theorem eq_empty_of_containsText {value : String} (h : containsText "" value = true) :
    value = "" := by
  have hnil : value.toList = [] := List.infix_nil.mp (containsText_iff.mp h)
  exact String.toList_eq_nil_iff.mp hnil

theorem infix_intercalate {α : Type} {sep part : List α} {parts : List (List α)}
    (h : part ∈ parts) : part <:+: sep.intercalate parts := by
  induction parts with
  | nil => cases h
  | cons first rest ih =>
      cases rest with
      | nil =>
          rw [List.mem_singleton.mp h, List.intercalate_singleton]
      | cons second rest =>
          rw [List.intercalate_cons_cons]
          rcases List.mem_cons.mp h with heq | hrest
          · rw [heq, List.append_assoc]
            exact List.infix_append_left
          · exact List.infix_append_of_infix_right (ih hrest)

/-- A joined text contains its parts. -/
theorem containsText_intercalate {sep part : String} {parts : List String} (h : part ∈ parts) :
    containsText (sep.intercalate parts) part = true := by
  apply containsText_iff.mpr
  rw [String.toList_intercalate]
  exact infix_intercalate (List.mem_map_of_mem h)

/-- A value appears in some text. -/
def Appears (texts : List String) (value : String) : Prop :=
  ∃ text ∈ texts, containsText text value = true

theorem appears_of_mem {texts : List String} {value : String} (h : value ∈ texts) :
    Appears texts value :=
  ⟨value, h, containsText_self value⟩

theorem Appears.trans {texts : List String} {text value : String} (h : Appears texts text)
    (hvalue : containsText text value = true) : Appears texts value := by
  rcases h with ⟨whole, hwhole, htext⟩
  exact ⟨whole, hwhole, containsText_trans htext hvalue⟩

end OakKeyring
