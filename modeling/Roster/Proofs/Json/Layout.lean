/-
**The two layouts side by side.**

A text can be scanned byte by byte: it is enough to know whether a byte stands in a string, whether a
backslash stands before it there, and how many brackets are open.  The contents of a string may look
like anything, so it is the scanner alone that tells a comma between two items from a comma in a
string.  Here the two layouts of a value are scanned in step.  They go through the same states, and
the spaced one has a space more behind each separator, that is, behind each comma and each colon that
stands outside strings and within the brackets of an element.

Main definitions:

* `Roster.Json.Scan` — the state of the scanner, with `Scan.step` for a byte and `Scan.run` for many;
* `Roster.Json.unspaced` — a text without the spaces outside strings;
* `Roster.Json.SpaceAt`, `Roster.Json.SeparatorAt` — what stands where in a text;
* `Roster.Json.Laid` — a compact text and a spaced one, in step.

Main results:

* `Roster.Json.Laid.unspaced` — **without its spaces the spaced text is the compact one**;
* `Roster.Json.Laid.spaceAt_succ_iff` — **spaces stand behind separators**, and nowhere else;
* `Roster.Json.Value.laid` — the two layouts of a value are in step.
-/

import Roster.Proofs.Json.Written

set_option relaxedAutoImplicit false
set_option autoImplicit false

namespace Roster.Json

/-! ### Scanning -/

/-- Where a byte stands. -/
inductive Place where
  | outside
  /-- In a string. -/
  | inside
  /-- In a string, behind a backslash. -/
  | escaped
  deriving DecidableEq, Repr

/-- What a scanner knows of the bytes behind it. -/
structure Scan where
  place : Place
  /-- The number of brackets that are open. -/
  depth : Nat
  deriving DecidableEq, Repr

namespace Scan

/-- Before the first byte. -/
def start : Scan := ⟨.outside, 0⟩

/-- Goes over one byte. -/
def step (c : Scan) (b : UInt8) : Scan :=
  match c.place with
  | .outside =>
    if b = 0x22 then ⟨.inside, c.depth⟩
    else if b = 0x5b ∨ b = 0x7b then ⟨.outside, c.depth + 1⟩
    else if b = 0x5d ∨ b = 0x7d then ⟨.outside, c.depth - 1⟩
    else c
  | .inside =>
    if b = 0x22 then ⟨.outside, c.depth⟩
    else if b = 0x5c then ⟨.escaped, c.depth⟩
    else c
  | .escaped => ⟨.inside, c.depth⟩

/-- Goes over some bytes. -/
def run (c : Scan) (s : Bytes) : Scan := s.foldl step c

/-- The byte separates what stands within the brackets of an element: the brackets of the document
are the first to be open, those of an element the second. -/
def Separates (c : Scan) (b : UInt8) : Prop :=
  c.place = .outside ∧ 2 ≤ c.depth ∧ (b = 0x2c ∨ b = 0x3a)

@[simp] theorem run_nil (c : Scan) : c.run [] = c := rfl

@[simp] theorem run_cons (c : Scan) (b : UInt8) (s : Bytes) : c.run (b :: s) = (c.step b).run s :=
  rfl

theorem Separates.ne_space {c : Scan} {b : UInt8} (h : c.Separates b) : b ≠ 0x20 := by
  obtain ⟨-, -, rfl | rfl⟩ := h <;> decide

/-- A separator leaves the scanner where it is. -/
theorem Separates.step {c : Scan} {b : UInt8} (h : c.Separates b) : c.step b = c := by
  obtain ⟨hplace, -, rfl | rfl⟩ := h <;> simp [Scan.step, hplace]

theorem step_space {c : Scan} (h : c.place = .outside) : c.step 0x20 = c := by
  simp [step, h]

end Scan

/-- A text without the spaces that stand outside strings. -/
def unspaced (c : Scan) : Bytes → Bytes
  | [] => []
  | b :: s =>
    if c.place = .outside ∧ b = 0x20 then unspaced (c.step b) s
    else b :: unspaced (c.step b) s

/-- At this index of a text there is a space outside strings. -/
def SpaceAt (c : Scan) (s : Bytes) (i : Nat) : Prop :=
  s[i]? = some 0x20 ∧ (c.run (s.take i)).place = .outside

/-- At this index of a text there is a separator. -/
def SeparatorAt (c : Scan) (s : Bytes) (i : Nat) : Prop :=
  ∃ b, s[i]? = some b ∧ (c.run (s.take i)).Separates b

section

variable {c : Scan} {b : UInt8} {s : Bytes}

theorem not_spaceAt_nil (i : Nat) : ¬SpaceAt c [] i := by
  simp [SpaceAt]

theorem not_separatorAt_nil (i : Nat) : ¬SeparatorAt c [] i := by
  simp [SeparatorAt]

theorem spaceAt_cons_zero : SpaceAt c (b :: s) 0 ↔ b = 0x20 ∧ c.place = .outside := by
  simp [SpaceAt]

theorem separatorAt_cons_zero : SeparatorAt c (b :: s) 0 ↔ c.Separates b := by
  simp [SeparatorAt]

theorem spaceAt_cons_succ (i : Nat) : SpaceAt c (b :: s) (i + 1) ↔ SpaceAt (c.step b) s i := by
  simp [SpaceAt]

theorem separatorAt_cons_succ (i : Nat) :
    SeparatorAt c (b :: s) (i + 1) ↔ SeparatorAt (c.step b) s i := by
  simp [SeparatorAt]

end

/-! ### Two texts in step -/

/-- A compact text and a spaced one, with the states of the scanner before and behind either: a space
stands behind each separator of the spaced text, and apart from that the bytes are the same. -/
inductive Laid : Scan → Bytes → Bytes → Scan → Prop where
  /-- The empty texts. -/
  | nil (c : Scan) : Laid c [] [] c
  /-- A separator, with a space in the one text. -/
  | separator {c c' : Scan} {b : UInt8} {s t : Bytes} (hb : c.Separates b) (h : Laid c s t c') :
      Laid c (b :: s) (b :: 0x20 :: t) c'
  /-- Any other byte, but for a space outside strings. -/
  | byte {c c' : Scan} {b : UInt8} {s t : Bytes} (hb : ¬c.Separates b)
      (hspace : ¬(c.place = .outside ∧ b = 0x20)) (h : Laid (c.step b) s t c') :
      Laid c (b :: s) (b :: t) c'

namespace Laid

variable {c c' c'' : Scan} {s s' t t' : Bytes}

/-- Texts in step may be put behind each other. -/
theorem append (h : Laid c s t c') (h' : Laid c' s' t' c'') :
    Laid c (s ++ s') (t ++ t') c'' := by
  induction h with
  | nil => exact h'
  | separator hb _ ih => exact .separator hb (ih h')
  | byte hb hspace _ ih => exact .byte hb hspace (ih h')

/-- **Without its spaces the spaced text is the compact one.** -/
theorem unspaced (h : Laid c s t c') : unspaced c t = s := by
  induction h with
  | nil => rfl
  | @separator c _ b _ _ hb _ ih =>
      have hbyte : ¬(c.place = .outside ∧ b = 0x20) := fun hspace => hb.ne_space hspace.2
      have hplace : c.place = .outside := hb.1
      rw [Json.unspaced, if_neg hbyte, hb.step, Json.unspaced, if_pos ⟨hplace, rfl⟩,
        Scan.step_space hplace, ih]
  | byte _ hspace _ ih => rw [Json.unspaced, if_neg hspace, ih]

/-- The spaced text does not begin with a space. -/
theorem not_spaceAt_zero (h : Laid c s t c') : ¬SpaceAt c t 0 := by
  cases h with
  | nil => exact not_spaceAt_nil 0
  | separator hb _ =>
      rw [spaceAt_cons_zero]
      rintro ⟨hspace, -⟩
      exact hb.ne_space hspace
  | byte _ hspace _ =>
      rw [spaceAt_cons_zero]
      rintro ⟨rfl, hplace⟩
      exact hspace ⟨hplace, rfl⟩

/-- **Spaces stand behind separators**, and nowhere else. -/
theorem spaceAt_succ_iff (h : Laid c s t c') (i : Nat) :
    SpaceAt c t (i + 1) ↔ SeparatorAt c t i := by
  induction h generalizing i with
  | nil => exact iff_of_false (not_spaceAt_nil _) (not_separatorAt_nil _)
  | @separator c _ b _ _ hb h ih =>
      have hplace : c.place = .outside := hb.1
      -- the separator, the space behind it, and what follows the two
      rcases i with _ | _ | i
      · rw [spaceAt_cons_succ, spaceAt_cons_zero, separatorAt_cons_zero, hb.step]
        exact iff_of_true ⟨rfl, hplace⟩ hb
      · rw [spaceAt_cons_succ, spaceAt_cons_succ, separatorAt_cons_succ, separatorAt_cons_zero,
          hb.step, Scan.step_space hplace]
        exact iff_of_false h.not_spaceAt_zero fun hspace => hspace.ne_space rfl
      · rw [spaceAt_cons_succ, spaceAt_cons_succ, separatorAt_cons_succ, separatorAt_cons_succ,
          hb.step, Scan.step_space hplace]
        exact ih i
  | @byte c _ b _ _ hb hspace h ih =>
      rcases i with _ | i
      · rw [spaceAt_cons_succ, separatorAt_cons_zero]
        exact iff_of_false h.not_spaceAt_zero hb
      · rw [spaceAt_cons_succ, separatorAt_cons_succ]
        exact ih i

end Laid

/-! ### Bytes outside strings -/

/-- The byte means nothing to a scanner outside strings. -/
def IsInert (b : UInt8) : Prop := b ∉ ([0x20, 0x22, 0x2c, 0x3a, 0x5b, 0x5d, 0x7b, 0x7d] : Bytes)

instance (b : UInt8) : Decidable (IsInert b) := inferInstanceAs (Decidable (¬_))

theorem isInert_of_isDigit {b : UInt8} (h : isDigit b = true) : IsInert b := by
  intro hb
  have hnone : ∀ c ∈ ([0x20, 0x22, 0x2c, 0x3a, 0x5b, 0x5d, 0x7b, 0x7d] : Bytes),
      isDigit c = false := by simp [isDigit]
  exact absurd rfl (ne_of_isDigit h (hnone b hb))

theorem forall_isInert {w : Bytes} (h : (w.all fun b => decide (IsInert b)) = true) :
    ∀ b ∈ w, IsInert b :=
  fun b hb => of_decide_eq_true (List.all_eq_true.1 h b hb)

/-- The bytes of a number mean nothing to a scanner. -/
theorem IsNumber.isInert {w : Bytes} (h : IsNumber w) : ∀ b ∈ w, IsInert b := by
  have hdigits : ∀ {ds : Bytes}, (∀ b ∈ ds, isDigit b = true) → ∀ b ∈ ds, IsInert b :=
    fun hds b hb => isInert_of_isDigit (hds b hb)
  have hcons : ∀ {b : UInt8} {w : Bytes}, IsInert b → (∀ b ∈ w, IsInert b) →
      ∀ c ∈ b :: w, IsInert c := fun hb hw => List.forall_mem_cons.2 ⟨hb, hw⟩
  have happend : ∀ {v w : Bytes}, (∀ b ∈ v, IsInert b) → (∀ b ∈ w, IsInert b) →
      ∀ b ∈ v ++ w, IsInert b := fun hv hw => List.forall_mem_append.2 ⟨hv, hw⟩
  have hwhole : ∀ {i}, IsWhole i → ∀ b ∈ i, IsInert b := by
    rintro _ (_ | ⟨hd, -, hds⟩)
    · exact forall_isInert (by decide)
    · exact hcons (isInert_of_isDigit hd) (hdigits hds)
  have hfraction : ∀ {f}, IsFraction f → ∀ b ∈ f, IsInert b := by
    rintro _ (_ | ⟨-, hw⟩)
    · exact forall_isInert (by decide)
    · exact hcons (by decide) (hdigits hw)
  have hexponent : ∀ {e}, IsExponent e → ∀ b ∈ e, IsInert b := by
    rintro _ (_ | ⟨hletter, hsign, -, hw⟩)
    · exact forall_isInert (by decide)
    · refine hcons ?_ (happend ?_ (hdigits hw))
      · rcases hletter with rfl | rfl <;> decide
      · rcases hsign with rfl | rfl | rfl <;> exact forall_isInert (by decide)
  cases h with
  | unsigned hi hf he => exact happend (hwhole hi) (happend (hfraction hf) (hexponent he))
  | signed hi hf he =>
      exact hcons (by decide) (happend (hwhole hi) (happend (hfraction hf) (hexponent he)))

theorem Scan.step_inert {n : Nat} {b : UInt8} (h : IsInert b) :
    (⟨.outside, n⟩ : Scan).step b = ⟨.outside, n⟩ := by
  simp only [IsInert, List.mem_cons, not_or] at h
  simp [step, h]

/-- Bytes that mean nothing are the same in either layout. -/
theorem laid_inert (n : Nat) {w : Bytes} (h : ∀ b ∈ w, IsInert b) :
    Laid ⟨.outside, n⟩ w w ⟨.outside, n⟩ := by
  induction w with
  | nil => exact .nil _
  | cons b w ih =>
      obtain ⟨hb, hw⟩ := List.forall_mem_cons.1 h
      have hnone := hb
      simp only [IsInert, List.mem_cons, not_or] at hnone
      refine .byte ?_ (fun hspace => hnone.1 hspace.2) ?_
      · rintro ⟨-, -, rfl | rfl⟩ <;> simp at hnone
      · rw [Scan.step_inert hb]
        exact ih hw

/-! ### Strings -/

/-- No byte of a string is a separator or a space outside strings. -/
theorem Laid.stringByte {c c' : Scan} {b : UInt8} {s t : Bytes} (hplace : c.place ≠ .outside)
    (h : Laid (c.step b) s t c') : Laid c (b :: s) (b :: t) c' :=
  .byte (fun hb => hplace hb.1) (fun hspace => hplace hspace.1) h

theorem hexDigit_ne : ∀ n, n < 16 → hexDigit n ≠ 0x22 ∧ hexDigit n ≠ 0x5c := by decide

/-- Bytes that are neither quotes nor backslashes leave the scanner in the string. -/
theorem laid_plain (n : Nat) {w : Bytes} (h : ∀ b ∈ w, b ≠ 0x22 ∧ b ≠ 0x5c) :
    Laid ⟨.inside, n⟩ w w ⟨.inside, n⟩ := by
  induction w with
  | nil => exact .nil _
  | cons b w ih =>
      obtain ⟨⟨hquote, hslash⟩, hw⟩ := List.forall_mem_cons.1 h
      have hstep : (⟨.inside, n⟩ : Scan).step b = ⟨.inside, n⟩ := by
        simp [Scan.step, hquote, hslash]
      refine .stringByte (by simp) ?_
      rw [hstep]
      exact ih hw

/-- What a byte is written as leaves the scanner in the string. -/
theorem laid_escaped (n : Nat) (b : UInt8) :
    Laid ⟨.inside, n⟩ (escaped b) (escaped b) ⟨.inside, n⟩ := by
  cases h : escape? b with
  | none =>
      obtain ⟨hquote, hslash, -⟩ := ne_of_escape?_eq_none h
      rw [escaped, h, Option.getD_none]
      exact laid_plain n (by simp [hquote, hslash])
  | some e =>
      rw [escaped, h, Option.getD_some]
      -- the byte behind the backslash is taken whatever it is
      rcases escape?_eq_some h with ⟨letter, -, rfl⟩ | ⟨-, rfl⟩
      · exact .stringByte (by simp) (.stringByte (by simp [Scan.step]) (.nil _))
      · have hhigh := hexDigit_ne (b.toNat / 16) (by have := b.toNat_lt; omega)
        have hlow := hexDigit_ne (b.toNat % 16) (by omega)
        refine .stringByte (by simp) (.stringByte (by simp [Scan.step]) ?_)
        exact laid_plain n (by simp [hhigh, hlow])

/-- A string is the same in either layout. -/
theorem laid_stringText (n : Nat) (t : String) :
    Laid ⟨.outside, n⟩ (stringText t) (stringText t) ⟨.outside, n⟩ := by
  have hcontent : Laid ⟨.inside, n⟩ ((utf8 t).flatMap escaped) ((utf8 t).flatMap escaped)
      ⟨.inside, n⟩ := by
    induction utf8 t with
    | nil => exact .nil _
    | cons b s ih => exact (laid_escaped n b).append ih
  have hclose : Laid ⟨.inside, n⟩ [0x22] [0x22] ⟨.outside, n⟩ := .stringByte (by simp) (.nil _)
  have hopen : ¬(⟨.outside, n⟩ : Scan).Separates 0x22 := by
    rintro ⟨-, -, h | h⟩ <;> cases h
  exact .byte hopen (by simp) (hcontent.append hclose)

/-! ### Arrays and objects -/

/-- Between brackets the scanner is one bracket deeper. -/
theorem Laid.bracket {n : Nat} {o e : UInt8} {s t : Bytes} (ho : o = 0x5b ∨ o = 0x7b)
    (he : e = 0x5d ∨ e = 0x7d) (h : Laid ⟨.outside, n + 1⟩ s t ⟨.outside, n + 1⟩) :
    Laid ⟨.outside, n⟩ (o :: (s ++ [e])) (o :: (t ++ [e])) ⟨.outside, n⟩ := by
  have hopen : (⟨.outside, n⟩ : Scan).step o = ⟨.outside, n + 1⟩ := by
    rcases ho with rfl | rfl <;> simp [Scan.step]
  have hclose : (⟨.outside, n + 1⟩ : Scan).step e = ⟨.outside, n⟩ := by
    rcases he with rfl | rfl <;> simp [Scan.step]
  have hend : Laid ⟨.outside, n + 1⟩ [e] [e] ⟨.outside, n⟩ := by
    refine .byte ?_ ?_ (hclose ▸ .nil _)
    · rcases he with rfl | rfl <;> simp [Scan.Separates]
    · rcases he with rfl | rfl <;> simp
  refine .byte ?_ ?_ (hopen ▸ h.append hend)
  · rcases ho with rfl | rfl <;> simp [Scan.Separates]
  · rcases ho with rfl | rfl <;> simp

/-- Texts in step may be joined with separators in step. -/
theorem laid_joined {α : Type} {c : Scan} {sep sep' : Bytes} (hsep : Laid c sep sep' c)
    (first : Bool) {xs : List α} {text text' : α → Bytes}
    (h : ∀ x ∈ xs, Laid c (text x) (text' x) c) :
    Laid c (joined sep first (xs.map text)) (joined sep' first (xs.map text')) c := by
  induction xs generalizing first with
  | nil => exact .nil c
  | cons x xs ih =>
      obtain ⟨hx, hxs⟩ := List.forall_mem_cons.1 h
      have hrest := hx.append (ih false hxs)
      cases first with
      | true => exact hrest
      | false =>
          simp only [List.map_cons, joined, Bool.false_eq_true, if_false, List.append_assoc]
          exact hsep.append hrest

/-- Within an element a space stands behind each comma. -/
theorem laid_separator (n : Nat) :
    Laid ⟨.outside, n + 2⟩ Style.compact.separator Style.spaced.separator ⟨.outside, n + 2⟩ :=
  .separator ⟨rfl, Nat.le_add_left 2 n, .inl rfl⟩ (.nil _)

theorem laid_colon (n : Nat) :
    Laid ⟨.outside, n + 2⟩ Style.compact.colon Style.spaced.colon ⟨.outside, n + 2⟩ :=
  .separator ⟨rfl, Nat.le_add_left 2 n, .inr rfl⟩ (.nil _)

/-- **The two layouts of a value are in step**, within the brackets of a document. -/
theorem Value.laid (v : Value) (n : Nat) :
    Laid ⟨.outside, n + 1⟩ (v.text .compact) (v.text .spaced) ⟨.outside, n + 1⟩ := by
  induction v generalizing n with
  | null => exact laid_inert _ (forall_isInert (by decide))
  | bool b => cases b <;> exact laid_inert _ (forall_isInert (by decide))
  | number k =>
      rw [text_number, text_number]
      exact laid_inert _ (isNumber_text k).isInert
  | string t =>
      rw [text_string, text_string]
      exact laid_stringText _ t
  | array items ih =>
      rw [text_array, text_array]
      have hitems := laid_joined (laid_separator n) true fun v hv => ih v hv (n + 1)
      exact .bracket (.inl rfl) (.inl rfl) hitems
  | object members ih =>
      rw [text_object, text_object]
      have hmember : ∀ m ∈ members, Laid ⟨.outside, n + 2⟩ (memberText .compact m)
          (memberText .spaced m) ⟨.outside, n + 2⟩ := fun m hm =>
        ((laid_stringText _ m.1).append (laid_colon n)).append (ih m hm (n + 1))
      exact .bracket (.inr rfl) (.inr rfl) (laid_joined (laid_separator n) true hmember)

end Roster.Json
