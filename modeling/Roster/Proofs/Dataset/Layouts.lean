/-
**The two layouts of a document.**

A document may be written in either layout.  The two differ in nothing but spaces: each of them stands
outside strings, behind a comma or a colon within an element, and no such separator is without one.
Between the elements the comma stands alone in both.  So the two are texts of one datum, and a reader
cannot tell them apart.

Main results:

* `Roster.laid_document` — the two layouts of a document are in step;
* `Roster.document_layouts` — **two layouts that differ in spaces only**.
-/

import Roster.Proofs.Dataset.Document
import Roster.Proofs.Json.Layout
import Roster.Proofs.Json.Verdict

set_option relaxedAutoImplicit false
set_option autoImplicit false

namespace Roster

open Json

/-- The comma between two elements is no separator, and no space stands behind it. -/
theorem laid_comma : Laid ⟨.outside, 1⟩ [0x2c] [0x2c] ⟨.outside, 1⟩ := by
  refine .byte ?_ (by simp) (.nil _)
  rintro ⟨-, hdepth, -⟩
  exact absurd hdepth (by decide)

/-- The two layouts of a document are in step. -/
theorem laid_document (vs : List Value) :
    Laid .start (document .compact vs) (document .spaced vs) .start := by
  rw [document, document, elementsText_eq, elementsText_eq]
  exact .bracket (.inl rfl) (.inl rfl) (laid_joined laid_comma true fun v _ => v.laid 0)

/-- Either layout of a document is a text of the same datum. -/
theorem derives_document (style : Style) (vs : List Value) :
    Derives (.element (.array (vs.map Value.datum))) (document style vs) := by
  suffices h : Derives (.value (.array (vs.map Value.datum))) (document style vs) from
    derives_element isBlanks_nil h
  rw [document, elementsText_eq]
  cases vs with
  | nil => exact .emptyArray isBlanks_nil
  | cons v vs =>
      have hlisted := listed_joined (fun d w => Derives (.element d) w) .compact
        ((v :: vs).map fun v => (v.datum, v.text style)) (by simp)
        (List.forall_mem_map.2 fun v _ b hb => derives_element hb (v.derives style)) isBlanks_nil
      rw [List.map_map, List.map_map] at hlisted
      exact .array (derives_elements_iff.2 hlisted)

/-- **Two layouts that differ in spaces only.**  Without the spaces that stand outside strings the
spaced document is the compact one.  Such a space stands behind each comma and each colon that is
outside strings and within an element, and nowhere else; in particular there is none behind a comma
between two elements.  Both documents are read for the same value, or both are refused. -/
theorem document_layouts (vs : List Value) :
    unspaced .start (document .spaced vs) = document .compact vs ∧
      ¬SpaceAt .start (document .spaced vs) 0 ∧
      (∀ i, SpaceAt .start (document .spaced vs) (i + 1) ↔
        SeparatorAt .start (document .spaced vs) i) ∧
      (∀ i, (document .spaced vs)[i]? = some 0x2c →
        Scan.start.run ((document .spaced vs).take i) = ⟨.outside, 1⟩ →
          (document .spaced vs)[i + 1]? ≠ some 0x20) ∧
      ((∃ v, ∀ style, parse (document style vs) = .ok v) ∨
        ∀ style, ∃ e, parse (document style vs) = .error e) := by
  have hlaid := laid_document vs
  refine ⟨hlaid.unspaced, hlaid.not_spaceAt_zero, hlaid.spaceAt_succ_iff, ?_, ?_⟩
  · intro i hcomma hrun hspace
    -- the comma leaves the scanner outside strings, so the space would have to follow a separator
    have hafter : SpaceAt .start (document .spaced vs) (i + 1) := by
      refine ⟨hspace, ?_⟩
      rw [List.take_add_one, hcomma, Option.toList_some, Scan.run, List.foldl_append]
      show ((Scan.start.run ((document .spaced vs).take i)).step 0x2c).place = .outside
      rw [hrun]
      rfl
    obtain ⟨b, -, hsep⟩ := (hlaid.spaceAt_succ_iff i).1 hafter
    rw [hrun] at hsep
    exact absurd hsep.2.1 (by decide)
  · rcases parse_judged (.array (vs.map Value.datum)) with ⟨v, hv⟩ | hrefused
    · exact .inl ⟨v, fun style => hv _ (derives_document style vs)⟩
    · exact .inr fun style => hrefused _ (derives_document style vs)

/-- Two elements, the first of them an array with a string that looks like a document itself. -/
theorem document_layouts_two :
    document .spaced [.array [.null, .string "a, [b: c"], .null] =
        utf8 "[[null, \"a, [b: c\"],null]" ∧
      document .compact [.array [.null, .string "a, [b: c"], .null] =
        utf8 "[[null,\"a, [b: c\"],null]" ∧
      unspaced .start (utf8 "[[null, \"a, [b: c\"],null]") = utf8 "[[null,\"a, [b: c\"],null]" ∧
      (utf8 "[[null, \"a, [b: c\"],null]")[20]? ≠ some 0x20 := by
  have hspaced : document .spaced [.array [.null, .string "a, [b: c"], .null] =
      utf8 "[[null, \"a, [b: c\"],null]" := by decide
  have hcompact : document .compact [.array [.null, .string "a, [b: c"], .null] =
      utf8 "[[null,\"a, [b: c\"],null]" := by decide
  obtain ⟨hunspaced, -, -, hcomma, -⟩ :=
    document_layouts [.array [.null, .string "a, [b: c"], .null]
  have hafter := hcomma 19 (by decide) (by decide)
  rw [hspaced] at hunspaced hafter
  rw [hcompact] at hunspaced
  exact ⟨hspaced, hcompact, hunspaced, hafter⟩

end Roster
