/-
**What the strict reader takes.**

The strict reader is described here against the grammar: for every text of an object or an array, it
is said by the data of the text alone whether a person is read and which one.  Of an object it takes
the members under the keys of the fields, each of which must be there once and hold a string;
whatever stands under other keys is passed over, how often and how deeply nested it may be, and the
order of the members does not matter.  Of an array it takes twenty-one strings, in the order of the
fields.

Main definitions:

* `Roster.Person.collect?` — what the strict reader makes of the members of an object.

Main results:

* `Roster.Person.readMembers_found`, `Roster.Person.readItems_found` — the strict reader goes along
  with the grammar, entry by entry;
* `Roster.Person.collect?_iff` — which members give a person;
* `Roster.Person.parse_grammar` — **the texts of persons**.
-/

import Roster.Proofs.Json.Found
import Roster.Proofs.Json.Written
import Roster.Proofs.Person.Reader

set_option relaxedAutoImplicit false
set_option autoImplicit false

namespace Roster

open Json

namespace Person

/-! ### Entries -/

/-- The strict reader takes a value exactly if it is a string. -/
theorem readText_of_valueAt {d : Datum} {s rest rest' : Bytes} {t : String}
    (h : ValueAt d s rest) : readText s = .ok (t, rest') ↔ d = .string t ∧ rest' = rest := by
  obtain ⟨v, hv, hs, -⟩ := h
  obtain ⟨b, tail, rfl, -, -, hstring⟩ := hv.head
  by_cases hb : b = 0x22
  · obtain ⟨t', rfl⟩ := hstring hb
    cases hv with
    | string h =>
        obtain ⟨w, hw, htaken⟩ := h.taken
        obtain ⟨rfl, rfl⟩ := List.cons.inj hw
        simp [readText, hs, (htaken rest).1, eq_comm]
  · have hno : ∀ t, d ≠ .string t := by
      rintro t rfl
      cases hv with
      | string h =>
          obtain ⟨w, hw, -⟩ := h.taken
          exact hb (List.cons.inj hw).1
    simp [readText, hs, hb, hno]

/-- What the strict reader makes of some members after the texts of some fields.  It passes over
members under other keys, and stops at a key that has a text already and at a value under the key of
a field that is no string. -/
def collect? (texts : List (Field × String)) :
    List (String × Datum) → Option (List (Field × String))
  | [] => some texts
  | (key, d) :: ms =>
    match Field.ofKey? key with
    | none => collect? texts ms
    | some f =>
      match d with
      | .string t => if (texts.lookup f).isSome then none else collect? ((f, t) :: texts) ms
      | _ => none

/-- The strict reader goes along with the members of an object. -/
theorem readMembers_found {first : Bool} {s rest rest' : Bytes} {ms : List (String × Datum)}
    {texts texts' : List (Field × String)} (h : Found nextMember MemberAt first s ms rest) :
    readMembers first texts s = .ok (texts', rest') ↔
      collect? texts ms = some texts' ∧ missing? texts' = none ∧ rest' = rest := by
  induction h generalizing texts with
  | finished hn => exact readMembers_finished_iff hn
  | @entry first s t tail rest m ms hn hm more ih =>
      obtain ⟨key, d⟩ := m
      obtain ⟨r, r', hkey, hcolon, hv⟩ := hm
      cases hf : Field.ofKey? key with
      | none =>
          obtain ⟨v, hd, hs, hends⟩ := hv
          rw [readMembers_of_other hn hkey hf hcolon (hd.skipValue hends hs), collect?, hf]
          exact ih
      | some f =>
          obtain rfl : f.key = key := by simpa using List.find?_some hf
          rw [readMembers_field_iff hn hkey hcolon fun _ _ => readText_of_valueAt hv, collect?, hf]
          simp only [ih]
          cases texts.lookup f with
          | some text => cases d <;> simp
          | none => cases d <;> simp

theorem readListEnd_iff {s rest : Bytes} :
    readListEnd s = .ok rest ↔ skipBlank s = 0x5d :: rest := by
  unfold readListEnd
  cases hs : skipBlank s with
  | nil => simp
  | cons b t =>
      by_cases hb : b = 0x5d
      · simp [hb]
      by_cases hc : b = 0x2c
      · cases ht : skipBlank t <;> simp [hc, ht]
      · simp [hb, hc]

theorem nextItem_finished_iff {first : Bool} {s rest : Bytes} :
    nextItem first s = .ok (.finished rest) ↔ skipBlank s = 0x5d :: rest := by
  constructor
  · intro h
    unfold nextItem at h
    repeat' split at h
    all_goals simp_all
  · intro h
    exact advances_items.finish h

/-- An item is taken exactly if it is a string, for the next field. -/
theorem readItems_cons_iff {first : Bool} {s t rest : Bytes} {d : Datum}
    (hn : nextItem first s = .ok (.entry t)) (hv : ValueAt d t rest) {found : Nat} {f : Field}
    {fs : List Field} {x : List (Field × String) × Bytes} :
    readItems first found (f :: fs) s = .ok x ↔
      ∃ text texts tail, d = .string text ∧
        readItems false (found + 1) fs rest = .ok (texts, tail) ∧ x = ((f, text) :: texts, tail) := by
  simp only [readItems, hn]
  cases htext : readText t with
  | error e =>
      refine iff_of_false (by simp) ?_
      rintro ⟨text, _, _, rfl, -⟩
      cases htext.symm.trans ((readText_of_valueAt hv).2 ⟨rfl, rfl⟩)
  | ok y =>
      obtain ⟨text, z⟩ := y
      obtain ⟨rfl, rfl⟩ := (readText_of_valueAt hv).1 htext
      cases hitems : readItems false (found + 1) fs z with
      | error e => simp [hitems]
      | ok y =>
          obtain ⟨texts, tail⟩ := y
          simp only [hitems, Except.ok.injEq, Datum.string.injEq, Prod.mk.injEq]
          constructor
          · rintro rfl
            exact ⟨text, texts, tail, rfl, ⟨rfl, rfl⟩, rfl⟩
          · rintro ⟨_, _, _, rfl, ⟨rfl, rfl⟩, rfl⟩
            rfl

/-- The strict reader goes along with the items of an array: they must be strings, and as many as
there are fields. -/
theorem readItems_found {first : Bool} {s rest rest' : Bytes} {ds : List Datum}
    (h : Found nextItem ValueAt first s ds rest) {found : Nat} {fs : List Field}
    {texts : List (Field × String)} :
    (∃ tail, readItems first found fs s = .ok (texts, tail) ∧ readListEnd tail = .ok rest') ↔
      ∃ ts : List String, ds = ts.map .string ∧ ts.length = fs.length ∧ texts = fs.zip ts ∧
        rest' = rest := by
  induction h generalizing found fs texts with
  | @finished first s rest hn =>
      have hs := nextItem_finished_iff.1 hn
      cases fs with
      | nil =>
          constructor
          · rintro ⟨_, hitems, hend⟩
            obtain ⟨rfl, rfl⟩ := Prod.mk.inj (Except.ok.inj hitems)
            rw [readListEnd_iff, hs] at hend
            exact ⟨[], rfl, rfl, rfl, (List.cons.inj hend).2.symm⟩
          · rintro ⟨ts, -, hlength, rfl, rfl⟩
            exact ⟨s, rfl, readListEnd_iff.2 hs⟩
      | cons f fs => simp [readItems, hn]
  | @entry first s t tail rest d ds hn hv more ih =>
      cases fs with
      | nil =>
          -- there is an item too many, so the array does not end here
          constructor
          · rintro ⟨_, hitems, hend⟩
            obtain ⟨-, rfl⟩ := Prod.mk.inj (Except.ok.inj hitems)
            cases hn.symm.trans (nextItem_finished_iff.2 (readListEnd_iff.1 hend))
          · rintro ⟨ts, hds, hlength, -, -⟩
            obtain rfl := List.length_eq_zero_iff.1 hlength
            cases hds
      | cons f fs =>
          simp only [readItems_cons_iff hn hv, Prod.mk.injEq]
          constructor
          · rintro ⟨_, ⟨text, texts', tail', rfl, hitems, rfl, rfl⟩, hend⟩
            obtain ⟨ts, rfl, hlength, rfl, rfl⟩ := ih.1 ⟨_, hitems, hend⟩
            exact ⟨text :: ts, rfl, congrArg _ hlength, rfl, rfl⟩
          · rintro ⟨ts, hds, hlength, rfl, rfl⟩
            cases ts with
            | nil => cases hds
            | cons text ts =>
                obtain ⟨rfl, rfl⟩ := List.cons.inj hds
                obtain ⟨tail', hitems, hend⟩ := ih.2 ⟨ts, rfl, Nat.succ.inj hlength, rfl, rfl⟩
                exact ⟨tail', ⟨text, _, tail', rfl, hitems, rfl, rfl⟩, hend⟩

/-! ### Members and fields -/

/-- What has been collected for a field is what stands under its key, if the field had no text
before. -/
theorem lookup_of_collect? {ms : List (String × Datum)} {texts texts' : List (Field × String)}
    (h : collect? texts ms = some texts') (f : Field) :
    (dataUnder f.key ms = [] ∧ texts'.lookup f = texts.lookup f) ∨
      (texts.lookup f = none ∧
        ∃ t, dataUnder f.key ms = [.string t] ∧ texts'.lookup f = some t) := by
  induction ms generalizing texts with
  | nil =>
      obtain rfl := Option.some.inj h
      exact .inl ⟨rfl, rfl⟩
  | cons m ms ih =>
      obtain ⟨key, d⟩ := m
      unfold collect? at h
      split at h
      · rename_i hother
        have hne : key ≠ f.key := by
          rintro rfl
          cases hother.symm.trans (Field.ofKey?_key f)
        rw [dataUnder_cons_of_ne hne]
        exact ih h
      rename_i g hg
      obtain rfl : g.key = key := by simpa using List.find?_some hg
      split at h
      · rename_i t
        split at h
        · cases h
        rename_i hlookup
        have hfresh : texts.lookup g = none := Option.not_isSome_iff_eq_none.1 hlookup
        by_cases hgf : f = g
        · subst hgf
          rw [dataUnder_cons_self]
          obtain ⟨hnone, htext⟩ | ⟨hno, -⟩ := ih h
          · rw [List.lookup_cons_self] at htext
            exact .inr ⟨hfresh, t, by rw [hnone], htext⟩
          · rw [List.lookup_cons_self] at hno
            cases hno
        · have hkey : g.key ≠ f.key := fun heq => hgf (Field.key_injective heq).symm
          have hsame := ih h
          rw [List.lookup_cons, beq_false_of_ne hgf] at hsame
          rw [dataUnder_cons_of_ne hkey]
          exact hsame
      · cases h

/-- Members are collected if no key of a field is there twice or holds anything but a string. -/
theorem exists_collect? {ms : List (String × Datum)} {texts : List (Field × String)}
    (h : ∀ f : Field, dataUnder f.key ms = [] ∨
      (texts.lookup f = none ∧ ∃ t, dataUnder f.key ms = [.string t])) :
    ∃ texts', collect? texts ms = some texts' := by
  induction ms generalizing texts with
  | nil => exact ⟨texts, rfl⟩
  | cons m ms ih =>
      obtain ⟨key, d⟩ := m
      rw [collect?]
      cases hf : Field.ofKey? key with
      | none =>
          refine ih fun f => ?_
          have hne : key ≠ f.key := by
            rintro rfl
            cases hf.symm.trans (Field.ofKey?_key f)
          have hother := h f
          rwa [dataUnder_cons_of_ne hne] at hother
      | some g =>
          obtain rfl : g.key = key := by simpa using List.find?_some hf
          -- the datum is the only one under its key
          obtain hnone | ⟨hfresh, t, ht⟩ := h g
          · rw [dataUnder_cons_self] at hnone
            cases hnone
          rw [dataUnder_cons_self] at ht
          obtain ⟨rfl, hlast⟩ := List.cons.inj ht
          simp only [hfresh, Option.isSome_none, Bool.false_eq_true, if_false]
          refine ih fun f => ?_
          by_cases hgf : f = g
          · exact .inl (hgf ▸ hlast)
          · have hkey : g.key ≠ f.key := fun heq => hgf (Field.key_injective heq).symm
            have hother := h f
            rw [dataUnder_cons_of_ne hkey] at hother
            rwa [List.lookup_cons, beq_false_of_ne hgf]

/-- **Which members give a person.** -/
theorem collect?_iff {ms : List (String × Datum)} {p : Person} :
    (∃ texts, collect? [] ms = some texts ∧ missing? texts = none ∧ ofTexts texts = p) ↔
      ∀ f : Field, dataUnder f.key ms = [.string (p.text f)] := by
  constructor
  · rintro ⟨texts, hcollect, hmissing, rfl⟩ f
    obtain ⟨-, hnone⟩ | ⟨-, t, hdata, htext⟩ := lookup_of_collect? hcollect f
    · have hsome := missing?_eq_none_iff.1 hmissing f
      rw [hnone] at hsome
      cases hsome
    · rw [hdata, ofTexts]
      simp [htext]
  · intro h
    obtain ⟨texts, hcollect⟩ : ∃ texts, collect? [] ms = some texts :=
      exists_collect? fun f => .inr ⟨rfl, p.text f, h f⟩
    have htext : ∀ f : Field, texts.lookup f = some (p.text f) := by
      intro f
      obtain ⟨hnone, -⟩ | ⟨-, t, hdata, htext⟩ := lookup_of_collect? hcollect f
      · cases hnone.symm.trans (h f)
      · cases hdata.symm.trans (h f)
        exact htext
    refine ⟨texts, hcollect, missing?_eq_none_iff.2 fun f => by simp [htext], ?_⟩
    exact Person.ext fun f => by simp [ofTexts, htext]

/-! ### Items and fields -/

/-- The texts of some fields that have been put beside them are found again. -/
theorem map_lookup_zip {fs : List Field} (hnodup : fs.Nodup) {ts : List String}
    (h : ts.length = fs.length) : fs.map (fun f => ((fs.zip ts).lookup f).getD "") = ts := by
  induction fs generalizing ts with
  | nil => exact (List.length_eq_zero_iff.1 h).symm
  | cons f fs ih =>
      cases ts with
      | nil => cases h
      | cons t ts =>
          obtain ⟨hnew, hnodup⟩ := List.nodup_cons.1 hnodup
          have hrest : ∀ g ∈ fs, (((f :: fs).zip (t :: ts)).lookup g).getD "" =
              ((fs.zip ts).lookup g).getD "" := by
            intro g hg
            have hne : g ≠ f := fun heq => hnew (heq ▸ hg)
            rw [List.zip_cons_cons, List.lookup_cons, beq_false_of_ne hne]
          rw [List.map_cons, List.map_congr_left hrest, ih hnodup (Nat.succ.inj h),
            List.zip_cons_cons, List.lookup_cons_self, Option.getD_some]

theorem nodup_all : Field.all.Nodup := by decide

/-- **Which items give a person.** -/
theorem ofTexts_zip_iff {ts : List String} {p : Person} (h : ts.length = Field.all.length) :
    ofTexts (Field.all.zip ts) = p ↔ ts = Field.all.map p.text := by
  have hmap : Field.all.map (ofTexts (Field.all.zip ts)).text = ts := map_lookup_zip nodup_all h
  constructor
  · rintro rfl
    exact hmap.symm
  · intro heq
    rw [heq] at hmap ⊢
    exact Person.ext fun f => List.map_inj_left.1 hmap f (Field.mem_all f)

/-! ### Whole texts -/

/-- A whole text is one person if nothing but blanks follows the person. -/
theorem parse_eq_ok_iff {s : Bytes} {p : Person} :
    parse s = .ok p ↔ ∃ rest, read s = .ok (p, rest) ∧ readEnd rest = .ok () := by
  unfold parse
  cases read s with
  | error e => simp
  | ok x =>
      obtain ⟨q, rest⟩ := x
      cases hend : readEnd rest with
      | error e =>
          refine iff_of_false (by simp [hend]) ?_
          rintro ⟨_, hread, hok⟩
          obtain ⟨-, rfl⟩ := Prod.mk.inj (Except.ok.inj hread)
          cases hend.symm.trans hok
      | ok u =>
          simp only [hend, Except.ok.injEq, Prod.mk.injEq]
          constructor
          · rintro rfl
            exact ⟨rest, ⟨rfl, rfl⟩, hend⟩
          · rintro ⟨_, ⟨rfl, -⟩, -⟩
            rfl

theorem read_of_object {s t rest : Bytes} {p : Person} (hs : skipBlank s = 0x7b :: t) :
    read s = .ok (p, rest) ↔
      ∃ texts, readMembers true [] t = .ok (texts, rest) ∧ ofTexts texts = p := by
  have hbrace : ¬(0x7b : UInt8) = 0x5b := by decide
  simp only [read, hs, hbrace, if_false, if_true]
  cases readMembers true [] t with
  | error e => simp
  | ok x => simp [Prod.ext_iff, and_comm, and_assoc]

theorem read_of_array {s t rest : Bytes} {p : Person} (hs : skipBlank s = 0x5b :: t) :
    read s = .ok (p, rest) ↔
      ∃ texts, (∃ tail, readItems true 0 Field.all t = .ok (texts, tail) ∧
        readListEnd tail = .ok rest) ∧ ofTexts texts = p := by
  simp only [read, hs, if_true, Person.readArray]
  cases readItems true 0 Field.all t with
  | error e => simp
  | ok x =>
      obtain ⟨texts, tail⟩ := x
      cases hend : readListEnd tail with
      | error e =>
          refine iff_of_false (by simp [hend]) ?_
          rintro ⟨_, ⟨_, hitems, hok⟩, -⟩
          obtain ⟨-, rfl⟩ := Prod.mk.inj (Except.ok.inj hitems)
          cases hend.symm.trans hok
      | ok z =>
          simp only [hend, Except.ok.injEq, Prod.mk.injEq]
          constructor
          · rintro ⟨rfl, rfl⟩
            exact ⟨texts, ⟨tail, ⟨rfl, rfl⟩, hend⟩, rfl⟩
          · rintro ⟨_, ⟨_, ⟨rfl, rfl⟩, hok⟩, rfl⟩
            exact ⟨rfl, Except.ok.inj (hend.symm.trans hok)⟩

theorem parse_object_iff {ms : List (String × Datum)} {s : Bytes}
    (h : Derives (.element (.object ms)) s) (p : Person) :
    parse s = .ok p ↔ ∀ f : Field, dataUnder f.key ms = [.string (p.text f)] := by
  obtain ⟨b, ⟨v, hv, hs, -⟩, hend⟩ := h.element_at
  obtain ⟨w, rfl, hfound⟩ := hv.found_object
  have hs : skipBlank s = 0x7b :: (w ++ 0x7d :: b) := by simpa using hs
  simp only [parse_eq_ok_iff, read_of_object hs, readMembers_found (hfound b), ← collect?_iff]
  constructor
  · rintro ⟨rest, ⟨texts, ⟨hcollect, hmissing, -⟩, hp⟩, -⟩
    exact ⟨texts, hcollect, hmissing, hp⟩
  · rintro ⟨texts, hcollect, hmissing, hp⟩
    exact ⟨b, ⟨texts, ⟨hcollect, hmissing, rfl⟩, hp⟩, hend⟩

theorem parse_array_iff {ds : List Datum} {s : Bytes} (h : Derives (.element (.array ds)) s)
    (p : Person) :
    parse s = .ok p ↔ ds = Field.all.map fun f => .string (p.text f) := by
  obtain ⟨b, ⟨v, hv, hs, -⟩, hend⟩ := h.element_at
  obtain ⟨w, rfl, hfound⟩ := hv.found_array
  have hs : skipBlank s = 0x5b :: (w ++ 0x5d :: b) := by simpa using hs
  simp only [parse_eq_ok_iff, read_of_array hs, readItems_found (hfound b)]
  constructor
  · rintro ⟨rest, ⟨texts, ⟨ts, rfl, hlength, rfl, -⟩, hp⟩, -⟩
    rw [(ofTexts_zip_iff hlength).1 hp, List.map_map]
    rfl
  · rintro rfl
    have hlength : (Field.all.map p.text).length = Field.all.length := List.length_map _
    refine ⟨b, ⟨_, ⟨Field.all.map p.text, ?_, hlength, rfl, rfl⟩, ?_⟩, hend⟩
    · rw [List.map_map]
      rfl
    · exact (ofTexts_zip_iff hlength).2 rfl

/-- **The texts of persons.**  An object is a person exactly if each key of a field is there once and
holds a string, whatever stands under other keys; it is refused if a key of a field is missing, is
there again or holds anything else.  An array is a person exactly if it has twenty-one items and all
of them are strings, which are the texts of the fields in their order. -/
theorem parse_grammar {d : Datum} {s : Bytes} (h : Derives (.element d) s) :
    (∀ ms, d = .object ms →
      (∀ p, parse s = .ok p ↔ ∀ f : Field, dataUnder f.key ms = [.string (p.text f)]) ∧
      ((∃ p, parse s = .ok p) ↔ ∀ key ∈ Field.keys, ∃ t, dataUnder key ms = [.string t]) ∧
      ∀ key ∈ Field.keys, dataUnder key ms = [] ∨ 2 ≤ (dataUnder key ms).length ∨
        (∃ d ∈ dataUnder key ms, ∀ t, d ≠ .string t) → ∃ e, parse s = .error e) ∧
    (∀ ds, d = .array ds →
      (∀ p, parse s = .ok p ↔ ds = Field.all.map fun f => .string (p.text f)) ∧
      ((∃ p, parse s = .ok p) ↔ ∃ ts : List String, ts.length = 21 ∧ ds = ts.map .string)) := by
  refine ⟨?_, ?_⟩
  · rintro ms rfl
    have hparse := parse_object_iff h
    refine ⟨hparse, ?_, ?_⟩
    · constructor
      · rintro ⟨p, hp⟩ key hkey
        obtain ⟨f, rfl⟩ := Field.mem_keys_iff.1 hkey
        exact ⟨p.text f, (hparse p).1 hp f⟩
      · intro hkeys
        have hfields : ∀ f : Field, ∃ t, dataUnder f.key ms = [.string t] := fun f =>
          hkeys f.key (Field.mem_keys_iff.2 ⟨f, rfl⟩)
        exact ⟨⟨fun f => (hfields f).choose⟩, (hparse _).2 fun f => (hfields f).choose_spec⟩
    · intro key hkey hwrong
      obtain ⟨f, rfl⟩ := Field.mem_keys_iff.1 hkey
      cases hresult : parse s with
      | error e => exact ⟨e, rfl⟩
      | ok p =>
          rw [(hparse p).1 hresult f] at hwrong
          simp at hwrong
  · rintro ds rfl
    have hparse := parse_array_iff h
    refine ⟨hparse, ?_⟩
    constructor
    · rintro ⟨p, hp⟩
      exact ⟨Field.all.map p.text, by simp, by rw [(hparse p).1 hp, List.map_map]; rfl⟩
    · rintro ⟨ts, hlength, rfl⟩
      have htexts := (ofTexts_zip_iff (hlength.trans Field.length_all.symm)).1 rfl
      refine ⟨ofTexts (Field.all.zip ts), (hparse _).2 ?_⟩
      conv => lhs; rw [htexts, List.map_map]
      rfl

/-- A person is read behind a member that no field has. -/
theorem parse_grammar_note :
    let v := Value.object (("note", .array [.null, .string "x"]) :: (ofIndex {} 0).members)
    Derives (.element v.datum) (v.text .spaced) ∧ parse (v.text .spaced) = .ok (ofIndex {} 0) := by
  intro v
  have hitems : ∀ v ∈ [Value.null, .string "x"], Readable 0 v := by
    simp only [List.mem_cons, List.not_mem_nil, or_false, forall_eq_or_imp, forall_eq]
    exact ⟨.null 0, .string 0 "x"⟩
  have hreadable : Readable 2 v := by
    refine .object (List.forall_mem_cons.2 ⟨.array hitems, fun m hm => ?_⟩)
    obtain ⟨f, -, rfl⟩ := List.mem_map.1 hm
    exact .string 1 _
  have hderives := derives_element isBlanks_nil (hreadable.derives .spaced)
  rw [List.nil_append] at hderives
  have hdatum : v.datum = .object (("note", .array [.null, .string "x"]) ::
      Field.all.map fun f => (f.key, .string ((ofIndex {} 0).text f))) := by
    simp [v, Value.datum, members_eq, fields, Function.comp_def]
  have hother : ∀ f ∈ Field.all, "note" ≠ f.key := by decide
  have honly : ∀ f ∈ Field.all, (Field.all.filter fun g => g.key = f.key) = [f] := by decide
  refine ⟨hderives, (((parse_grammar hderives).1 _ hdatum).1 _).2 fun f => ?_⟩
  rw [dataUnder_cons_of_ne (hother f (Field.mem_all f)), dataUnder, List.filter_map]
  have hfilter := honly f (Field.mem_all f)
  simp [Function.comp_def, hfilter]

end Person

end Roster
