import DeclBundle.Proofs.Declaration.Imports

/-!
Bundles of declaration texts. It makes no difference whether the import lines go before the texts are
joined or after it, since the line feed between two texts ends the last line of the one and begins the
first line of the other.
-/

namespace DeclBundle.Declaration

open Text Pieces

variable {texts more : List String}

theorem stripImports_empty : stripImports "" = "" := by
  decide +kernel

theorem stripImports_append_feed (a b : String) :
    stripImports (a ++ "\n" ++ b) = stripImports a ++ "\n" ++ stripImports b := by
  have htext : (a ++ "\n" ++ b).toList = a.toList ++ '\n' :: b.toList := by simp
  rw [← String.toList_inj, toList_stripImports, htext, cut_append_sep (by rfl)]
  simp [toList_stripImports, Pieces.map, join]

theorem merge_cons_of_ne_nil (text : String) (hmore : more ≠ []) :
    merge (text :: more) = stripImports text ++ "\n" ++ merge more := by
  rw [merge, List.map_cons, String.intercalate_cons_of_ne_nil (by simpa using hmore), merge]

theorem merge_eq_stripImports (texts : List String) : merge texts = stripImports ("\n".intercalate texts) := by
  induction texts with
  | nil => exact stripImports_empty.symm
  | cons text more ih =>
    by_cases hmore : more = []
    · subst hmore
      simp [merge]
    · rw [merge_cons_of_ne_nil text hmore, String.intercalate_cons_of_ne_nil hmore, stripImports_append_feed, ih]

theorem merge_append (htexts : texts ≠ []) (hmore : more ≠ []) :
    merge (texts ++ more) = merge texts ++ "\n" ++ merge more := by
  rw [merge, List.map_append, String.intercalate_append_of_ne_nil (by simpa using htexts) (by simpa using hmore),
    merge, merge]

/-- A bundle is its texts joined and then stripped, bundles joined by a line feed are a bundle, and a
bundle has no import line left, not even across the end of a text. -/
theorem merge_composes :
    (∀ texts, merge texts = stripImports ("\n".intercalate texts)) ∧
    (∀ texts more, texts ≠ [] → more ≠ [] → merge (texts ++ more) = merge texts ++ "\n" ++ merge more) ∧
    ∀ texts, stripImports (merge texts) = merge texts ∧ merge [merge texts] = merge texts ∧
      ∀ c rest, importWord ++ c :: rest ∉ (cut isBreak (merge texts).toList).toList := by
  refine ⟨merge_eq_stripImports, fun texts more => merge_append, fun texts => ?_⟩
  have hstripped : stripImports (merge texts) = merge texts := by
    rw [merge_eq_stripImports, stripImports_stripImports]
  refine ⟨hstripped, ?_, ?_⟩
  · rw [merge, List.map_singleton, String.intercalate_singleton, hstripped]
  · rw [merge_eq_stripImports]
    exact not_mem_stripImports _

theorem merge_composes_sample :
    let texts := ["import a\r", "import"]
    let more := ["\nimport b", ""]
    texts ≠ [] ∧ more ≠ [] ∧ merge (texts ++ more) = merge texts ++ "\n" ++ merge more ∧
      merge texts = "\r\nimport" ∧ merge more = "\n\n" := by
  intro texts more
  have htexts : texts ≠ [] := List.cons_ne_nil _ _
  have hmore : more ≠ [] := List.cons_ne_nil _ _
  exact ⟨htexts, hmore, merge_composes.2.1 texts more htexts hmore, by decide +kernel, by decide +kernel⟩

end DeclBundle.Declaration
