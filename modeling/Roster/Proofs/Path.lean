/-
**The names of a path.**

Paths are put together and taken apart as texts, and walked along by their names.  The two views
meet here: a slash between two texts puts the names of the one before those of the other, and the
path without its last part has the names that come before the last one, but for dots at their end,
which a walk does not notice.

Main definitions:

* `Roster.Path.namesOf` — the names in a text.

Main results:

* `Roster.Path.namesOf_append_slash` — the names on the two sides of a slash;
* `Roster.Path.names_join` — **the names of a path below another one**;
* `Roster.Path.parent?_of_slash` — the path without its last part;
* `Roster.Path.namesOf_trimBack` — **what is trimmed are slashes and dots**;
* `Roster.Path.names_locationText` — a location is written by its names.
-/

import Mathlib.Data.List.TakeWhile
import Roster.Store

set_option relaxedAutoImplicit false
set_option autoImplicit false

namespace Roster

namespace Path

variable {cs xs ys init last : List Char} {p q : Path}

/-! ### Names in a text -/

/-- The names in a text: its stretches that are not empty. -/
def namesOf (cs : List Char) : List String :=
  ((stretches cs).filter fun s => !s.isEmpty).map String.ofList

theorem names_eq (p : Path) : p.names = namesOf p.text.toList := rfl

theorem stretches_append_slash (xs ys : List Char) :
    stretches (xs ++ '/' :: ys) = stretches xs ++ stretches ys := by
  induction xs with
  | nil => simp [stretches]
  | cons c xs ih =>
      by_cases hc : c = '/'
      · simp [stretches, hc, ih]
      · -- the first stretch grows by a character, and there is always a first stretch
        cases hxs : stretches xs with
        | nil =>
            cases xs with
            | nil => simp [stretches] at hxs
            | cons d xs =>
                simp only [stretches] at hxs
                split at hxs
                · cases hxs
                · split at hxs <;> cases hxs
        | cons s more => simp [stretches, hc, ih, hxs]

/-- The names on the two sides of a slash. -/
theorem namesOf_append_slash (xs ys : List Char) :
    namesOf (xs ++ '/' :: ys) = namesOf xs ++ namesOf ys := by
  rw [namesOf, stretches_append_slash, List.filter_append, List.map_append]
  rfl

@[simp] theorem namesOf_nil : namesOf [] = [] := rfl

@[simp] theorem namesOf_slash (ys : List Char) : namesOf ('/' :: ys) = namesOf ys := by
  simpa using namesOf_append_slash [] ys

theorem stretches_of_notMem (h : '/' ∉ cs) : stretches cs = [cs] := by
  induction cs with
  | nil => rfl
  | cons c cs ih =>
      rw [List.mem_cons, not_or] at h
      rw [stretches, if_neg (Ne.symm h.1), ih h.2]

/-- A text without slashes is one name. -/
theorem namesOf_of_notMem (h : '/' ∉ cs) (hne : cs ≠ []) : namesOf cs = [String.ofList cs] := by
  rw [namesOf, stretches_of_notMem h]
  simp [hne]

/-- A text has no slash, or it has a last one. -/
theorem notMem_or_split (cs : List Char) :
    '/' ∉ cs ∨ ∃ init last, cs = init ++ '/' :: last ∧ '/' ∉ last := by
  by_cases h : '/' ∈ cs
  · obtain ⟨as, bs, hsplit, hfirst⟩ := List.eq_append_cons_of_mem (List.mem_reverse.2 h)
    refine .inr ⟨bs.reverse, as.reverse, ?_, by simpa using hfirst⟩
    rw [← List.reverse_reverse cs, hsplit]
    simp
  · exact .inl h

/-! ### Paths below other paths -/

/-- The text of a path below another one, which is not absolute. -/
theorem text_join (hq : q.isAbsolute = false) :
    (p.join q).text = p.text ++ q.text ∧ (p.text = "" ∨ p.endsWithSlash = true) ∨
      (p.join q).text = p.text ++ "/" ++ q.text := by
  rw [join, if_neg (by simp [hq])]
  split
  · rename_i h
    exact .inl ⟨rfl, by simpa [endsWithSlash] using h⟩
  · exact .inr rfl

/-- The names of a path below another one. -/
theorem names_join (hq : q.isAbsolute = false) : (p.join q).names = p.names ++ q.names := by
  rw [names_eq, names_eq, names_eq]
  rcases text_join (p := p) hq with ⟨htext, hempty | hslash⟩ | htext
  · rw [htext, hempty]
    simp
  · obtain ⟨xs, hxs⟩ := List.getLast?_eq_some_iff.1 (by simpa [endsWithSlash] using hslash)
    rw [htext, String.toList_append, hxs, List.append_assoc, List.singleton_append,
      namesOf_append_slash, namesOf_append_slash, namesOf_nil, List.append_nil]
  · rw [htext, String.toList_append, String.toList_append, List.append_assoc]
    exact namesOf_append_slash _ _

/-- A path below an absolute one is absolute. -/
theorem isAbsolute_join (hp : p.isAbsolute = true) : (p.join q).isAbsolute = true := by
  cases hq : q.isAbsolute with
  | true => rw [join_of_isAbsolute hq, hq]
  | false =>
      have hhead : p.text.toList.head? = some '/' := by simpa [isAbsolute] using hp
      rcases text_join (p := p) hq with ⟨htext, -⟩ | htext <;>
        simp [isAbsolute, htext, List.head?_append, hhead]

/-- The characters of a path below another one are theirs, and slashes. -/
theorem mem_join {c : Char} (h : c ∈ (p.join q).text.toList) :
    c ∈ p.text.toList ∨ c = '/' ∨ c ∈ q.text.toList := by
  cases hq : q.isAbsolute with
  | true =>
      rw [join_of_isAbsolute hq] at h
      exact .inr (.inr h)
  | false =>
      rcases text_join (p := p) hq with ⟨htext, -⟩ | htext <;>
        simp only [htext, String.toList_append, List.mem_append, or_assoc] at h
      · exact h.imp_right .inr
      · simpa using h

/-- A path below another one is at least as long as both of them. -/
theorem utf8ByteSize_le_join (hq : q.isAbsolute = false) :
    p.text.utf8ByteSize + q.text.utf8ByteSize ≤ (p.join q).text.utf8ByteSize := by
  rcases text_join (p := p) hq with ⟨htext, -⟩ | htext <;> rw [htext]
  · rw [String.utf8ByteSize_append]
  · rw [String.utf8ByteSize_append, String.utf8ByteSize_append]
    omega

/-! ### Paths without their last part -/

/-- **What is trimmed are slashes and dots**: the names stay, but for dots at their end. -/
theorem namesOf_trimBack (cs : List Char) :
    ∃ k, namesOf cs.reverse = namesOf (trimBack cs).reverse ++ List.replicate k "." := by
  fun_induction trimBack cs with
  | case1 rest ih =>
      obtain ⟨k, hk⟩ := ih
      refine ⟨k, ?_⟩
      rw [List.reverse_cons, namesOf_append_slash, namesOf_nil, List.append_nil, hk]
  | case2 => exact ⟨0, (List.append_nil _).symm⟩
  | case3 rest ih =>
      obtain ⟨k, hk⟩ := ih
      refine ⟨k + 1, ?_⟩
      have hdot : namesOf ['.'] = ["."] := rfl
      rw [List.reverse_cons, List.reverse_cons, List.append_assoc, List.singleton_append,
        namesOf_append_slash, hdot, List.replicate_succ', ← List.append_assoc, ← hk,
        List.reverse_cons, namesOf_append_slash, namesOf_nil, List.append_nil]
  | case4 => exact ⟨0, (List.append_nil _).symm⟩

/-- What is trimmed comes at the end. -/
theorem trimBack_suffix (cs : List Char) : trimBack cs <:+ cs := by
  fun_induction trimBack cs with
  | case1 rest ih => exact ih.trans (List.suffix_cons _ _)
  | case3 rest ih => exact ih.trans (List.suffix_cons _ _)
  | case2 | case4 => exact List.suffix_refl _

/-- A text of which nothing is left starts with a slash, if there was something. -/
theorem getLast?_of_trimBack_eq_nil (h : trimBack cs = []) (hne : cs ≠ []) :
    cs.getLast? = some '/' := by
  fun_induction trimBack cs with
  | case1 rest ih =>
      by_cases hrest : rest = []
      · simp [hrest]
      · rw [List.getLast?_cons_of_ne_nil hrest]
        exact ih h hrest
  | case2 => cases h
  | case3 rest ih =>
      rw [List.getLast?_cons_cons]
      exact ih h (by simp)
  | case4 => exact (hne h).elim

/-- A text of which something is left still starts as it did. -/
theorem getLast?_trimBack (h : trimBack cs ≠ []) : (trimBack cs).getLast? = cs.getLast? := by
  obtain ⟨trimmed, happend⟩ := trimBack_suffix cs
  rw [← happend, List.getLast?_append, List.getLast?_eq_some_getLast h, Option.some_or,
    happend, List.getLast?_eq_some_getLast h]

/-- Nothing is trimmed of a text that ends with a name. -/
theorem trimBack_of_name (hlast : '/' ∉ last) (hne : last ≠ []) (hdot : last ≠ ['.'])
    (rest : List Char) : trimBack (last.reverse ++ rest) = last.reverse ++ rest := by
  obtain ⟨c, cs, hcs⟩ : ∃ c cs, last.reverse = c :: cs :=
    List.exists_cons_of_ne_nil (by simpa using hne)
  have hmem : ∀ d ∈ c :: cs, d ≠ '/' := by
    rintro d hd rfl
    exact hlast (List.mem_reverse.1 (hcs ▸ hd))
  rw [hcs, List.cons_append]
  have hc := hmem c List.mem_cons_self
  unfold trimBack
  split
  · rename_i heq
    exact (hc (List.cons.inj heq).1).elim
  · rename_i heq
    exact heq.symm
  · rename_i rest' heq
    obtain ⟨rfl, htail⟩ := List.cons.inj heq
    cases cs with
    | nil =>
        refine (hdot ?_).elim
        rw [← List.reverse_reverse last, hcs]
        rfl
    | cons d cs =>
        exact (hmem d (by simp) (List.cons.inj htail).1).elim
  · rfl

theorem dropName_of_notMem (h : '/' ∉ xs) (ys : List Char) :
    dropName (xs ++ '/' :: ys) = '/' :: ys := by
  rw [dropName, List.dropWhile_append_of_pos]
  · simp
  · intro c hc
    simp only [ne_eq, decide_eq_true_eq]
    rintro rfl
    exact h hc

/-- What is left of a text, given backwards, as a path: the root if nothing is. -/
def ofTrimmed : List Char → Path
  | [] => ⟨"/"⟩
  | s => ⟨String.ofList s.reverse⟩

/-- The path without its last part, which is a name after a slash. -/
theorem parent?_of_slash (htext : p.text.toList = init ++ '/' :: last) (hlast : '/' ∉ last)
    (hne : last ≠ []) (hdot : last ≠ ['.']) :
    p.parent? = some (ofTrimmed (trimBack init.reverse)) := by
  have hreverse : p.text.toList.reverse = last.reverse ++ '/' :: init.reverse := by
    rw [htext]
    simp
  have hdrop : dropName (last.reverse ++ '/' :: init.reverse) = '/' :: init.reverse :=
    dropName_of_notMem (by simpa using hlast) _
  have htrim : trimBack ('/' :: init.reverse) = trimBack init.reverse := by rw [trimBack]
  rw [parent?, hreverse, trimBack_of_name hlast hne hdot]
  cases hwhole : last.reverse ++ '/' :: init.reverse with
  | nil => simp at hwhole
  | cons c cs =>
      rw [hwhole] at hdrop
      simp only [hdrop, htrim]
      cases trimBack init.reverse <;> rfl

/-- A name has nothing before it. -/
theorem parent?_of_notMem (h : '/' ∉ p.text.toList) (hne : p.text.toList ≠ [])
    (hdot : p.text.toList ≠ ['.']) : p.parent? = some ⟨""⟩ := by
  have htrim := trimBack_of_name h hne hdot []
  rw [List.append_nil] at htrim
  have hdrop : dropName p.text.toList.reverse = [] := by
    rw [dropName, List.dropWhile_eq_nil_iff]
    intro c hc
    simp only [ne_eq, decide_eq_true_eq]
    rintro rfl
    exact h (List.mem_reverse.1 hc)
  rw [parent?, htrim]
  cases hwhole : p.text.toList.reverse with
  | nil => exact (hne (by simpa using hwhole)).elim
  | cons c cs =>
      rw [hwhole] at hdrop
      simp only [hdrop]

/-! ### Locations -/

/-- The text of a location: a slash before each name, and one for the root. -/
theorem toList_locationText (name : String) (loc : Location) :
    (Store.locationText (name :: loc)).toList =
      '/' :: name.toList ++ if loc = [] then [] else (Store.locationText loc).toList := by
  have htext : ∀ l, (Store.locationText l).toList =
      '/' :: ['/'].intercalate (l.map String.toList) := by
    intro l
    rw [Store.locationText, String.toList_append, String.toList_intercalate]
    rfl
  cases loc with
  | nil => simp [htext, List.intercalate]
  | cons next loc => simp [htext, List.intercalate]

/-- A location is written by its names. -/
theorem names_locationText {loc : Location} (h : ∀ name ∈ loc, name ≠ "" ∧ '/' ∉ name.toList) :
    Path.names ⟨Store.locationText loc⟩ = loc := by
  rw [names_eq]
  induction loc with
  | nil => rfl
  | cons name loc ih =>
      obtain ⟨hne, hslash⟩ := h name List.mem_cons_self
      have hname : namesOf name.toList = [name] := by
        rw [namesOf_of_notMem hslash (by simpa using hne), String.ofList_toList]
      have hrest := ih fun n hn => h n (List.mem_cons_of_mem _ hn)
      rw [toList_locationText, List.cons_append, namesOf_slash]
      by_cases hloc : loc = []
      · simpa [hloc] using hname
      · rw [if_neg hloc]
        -- the slash that the rest starts with parts it from the name
        obtain ⟨cs, hcs⟩ : ∃ cs, (Store.locationText loc).toList = '/' :: cs :=
          ⟨_, by rw [Store.locationText, String.toList_append]; rfl⟩
        rw [hcs, namesOf_slash] at hrest
        rw [hcs, namesOf_append_slash, hname, hrest]
        rfl

/-- The characters of a location are slashes and those of its names. -/
theorem mem_locationText {loc : Location} {c : Char} (h : c ∈ (Store.locationText loc).toList) :
    c = '/' ∨ ∃ name ∈ loc, c ∈ name.toList := by
  induction loc with
  | nil => exact .inl (by simpa [Store.locationText] using h)
  | cons name loc ih =>
      rw [toList_locationText, List.cons_append, List.mem_cons, List.mem_append] at h
      rcases h with hslash | hname | hrest
      · exact .inl hslash
      · exact .inr ⟨name, List.mem_cons_self, hname⟩
      · split at hrest
        · cases hrest
        · rcases ih hrest with hslash | ⟨n, hn, hc⟩
          · exact .inl hslash
          · exact .inr ⟨n, List.mem_cons_of_mem _ hn, hc⟩

end Path

end Roster
