import SolidScript.Proofs.Fault.Collected
import SolidScript.Proofs.Heap.Basic
import SolidScript.Script.Text

/-!
# Calls in a text

A part with a text has its call, with the arguments, written first and the texts of its parts after
it (`Part.script_ok`). So the text of a part holds the calls of all parts that stand within it
(`Part.call_infix_script`).
-/

namespace SolidScript

open SolidScript.Part

theorem Value.scriptAll_eq_collect (values : List (Value Float)) :
    scriptAll values = Fault.collect (values.map script) := by
  induction values with
  | nil => rfl
  | cons value rest ih =>
    rw [scriptAll, List.map_cons, ih]
    cases value.script <;> rfl

theorem Script.infix_body {text : String} {texts : List String} (h : text ∈ texts) :
    text.toList <:+: (body texts).toList := by
  match texts with
  | [only] =>
    rw [List.mem_singleton.mp h]
    exact List.infix_rfl
  | first :: second :: rest =>
    have hjoin : text.toList <:+: (String.join (first :: second :: rest)).toList := by
      rw [String.toList_join, List.flatMap_def]
      exact List.infix_of_mem_flatten (List.mem_map_of_mem h)
    show text.toList <:+: ("\x7b" ++ String.join (first :: second :: rest) ++ "\x7d").toList
    rw [String.toList_append, String.toList_append]
    exact hjoin.trans (List.infix_append _ _ _)

namespace Part

theorem script_eq (part : Part Float) :
    part.script = Script.rule part.head (part.parts.map script) := fold_eq _ _

theorem script_ok {part : Part Float} {text : String} (h : part.script = .ok text) :
    ∃ call texts, Script.opening part.head = .ok call ∧
      Fault.collect (part.parts.map script) = .ok texts ∧ text = call ++ Script.body texts := by
  rw [script_eq, Script.rule] at h
  cases hopening : Script.opening part.head with
  | error fault =>
    rw [hopening] at h
    cases h
  | ok call =>
    cases hinner : Fault.collect (part.parts.map script) with
    | error fault =>
      rw [hopening, hinner] at h
      cases h
    | ok texts =>
      rw [hopening, hinner] at h
      cases h
      exact ⟨call, texts, rfl, rfl, rfl⟩

/-- The calls of all parts within a part stand in its text, with their arguments. -/
theorem call_infix_script {inner part : Part Float} (h : Within inner part) :
    ∀ {text}, part.script = .ok text →
      ∃ call, Script.opening inner.head = .ok call ∧ call.toList <:+: text.toList := by
  induction h with
  | self =>
    intro text hscript
    obtain ⟨call, texts, hcall, -, rfl⟩ := script_ok hscript
    refine ⟨call, hcall, ?_⟩
    rw [String.toList_append]
    exact (List.prefix_append _ _).isInfix
  | @inside child part hchild _ ih =>
    intro text hscript
    obtain ⟨call, texts, -, hcollect, rfl⟩ := script_ok hscript
    obtain ⟨below, hbelow, hok⟩ := Fault.exists_of_collect hcollect child hchild
    obtain ⟨innerCall, hinner, hinfix⟩ := ih hok
    refine ⟨innerCall, hinner, ?_⟩
    rw [String.toList_append]
    exact hinfix.trans ((Script.infix_body hbelow).trans (List.suffix_append _ _).isInfix)

end Part

end SolidScript
