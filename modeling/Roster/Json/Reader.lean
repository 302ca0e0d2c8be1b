/-
**Reading JSON values.**

A value is read by one look at its first byte; arrays and objects are read by a loop over their
items or members, each of which is read by a reader that may open one bracket less.  The loops
keep a state, so that a caller can follow the items as they come and still know them when a later
one turns out to be faulty.

Main definitions:

* `Roster.Json.Reader` — a reader whose rest is shorter than its input;
* `Roster.Json.foldItems`, `Roster.Json.foldMembers` — the loops over the items of an array and
  the members of an object, from their opening bracket on;
* `Roster.Json.value` — **the reader of values**, with the number of brackets it may still open;
* `Roster.Json.parse` — a whole text as one value.

Of two members with the same key the later one counts.
-/

import Roster.Json.Token

set_option relaxedAutoImplicit false
set_option autoImplicit false

namespace Roster.Json

/-- A reader that consumes at least one byte whenever it succeeds. -/
structure Reader (α : Type) where
  run : Bytes → Read α
  /-- The rest is shorter than the input. -/
  shorter : ∀ {s r : Bytes} {a : α}, run s = .ok (a, r) → r.length < s.length

/-! ### Separators -/

/-- What comes next in an array or object: its end, with the rest after the bracket, or another
entry. -/
inductive Next where
  /-- The closing bracket, and what follows it. -/
  | finished (rest : Bytes)
  /-- Another entry, which starts here. -/
  | entry (rest : Bytes)

/-- The input that goes on after what comes next. -/
def Next.rest : Next → Bytes
  | finished rest => rest
  | entry rest => rest

/-- Looks for the next item of an array. -/
def nextItem (first : Bool) (s : Bytes) : Except Fault Next :=
  match skipBlank s with
  | [] => .error (.onto .endInList [])
  | b :: rest =>
    if b = 0x5d then .ok (.finished rest)
    else if first then .ok (.entry (b :: rest))
    else if b = 0x2c then
      match skipBlank rest with
      | [] => .error (.onto .endInValue [])
      | c :: rest =>
        if c = 0x5d then .error (.onto .trailingComma (c :: rest)) else .ok (.entry (c :: rest))
    else .error (.onto .expectedListEnd (b :: rest))

/-- Looks for the next member of an object. -/
def nextMember (first : Bool) (s : Bytes) : Except Fault Next :=
  match skipBlank s with
  | [] => .error (.onto .endInObject [])
  | b :: rest =>
    if b = 0x7d then .ok (.finished rest)
    else if first then
      if b = 0x22 then .ok (.entry (b :: rest)) else .error (.onto .keyNotString (b :: rest))
    else if b = 0x2c then
      match skipBlank rest with
      | [] => .error (.onto .endInValue [])
      | c :: rest =>
        if c = 0x22 then .ok (.entry (c :: rest))
        else if c = 0x7d then .error (.onto .trailingComma (c :: rest))
        else .error (.onto .keyNotString (c :: rest))
    else .error (.onto .expectedObjectEnd (b :: rest))

theorem nextItem_length {first : Bool} {s : Bytes} {n : Next} (h : nextItem first s = .ok n) :
    n.rest.length ≤ s.length := by
  have hs := skipBlank_length s
  unfold nextItem at h
  split at h
  · simp at h
  rename_i b rest hb
  rw [hb, List.length_cons] at hs
  have hr := skipBlank_length rest
  split at h
  · simp only [Except.ok.injEq] at h
    simp only [← h, Next.rest]
    omega
  split at h
  · simp only [Except.ok.injEq] at h
    simp only [← h, Next.rest, List.length_cons]
    omega
  split at h
  · split at h
    · simp at h
    rename_i c rest' hc
    rw [hc, List.length_cons] at hr
    split at h
    · simp at h
    · simp only [Except.ok.injEq] at h
      simp only [← h, Next.rest, List.length_cons]
      omega
  · simp at h

theorem nextMember_length {first : Bool} {s : Bytes} {n : Next}
    (h : nextMember first s = .ok n) : n.rest.length ≤ s.length := by
  have hs := skipBlank_length s
  unfold nextMember at h
  split at h
  · simp at h
  rename_i b rest hb
  rw [hb, List.length_cons] at hs
  have hr := skipBlank_length rest
  split at h
  · simp only [Except.ok.injEq] at h
    simp only [← h, Next.rest]
    omega
  split at h
  · split at h
    · simp only [Except.ok.injEq] at h
      simp only [← h, Next.rest, List.length_cons]
      omega
    · simp at h
  split at h
  · split at h
    · simp at h
    rename_i c rest' hc
    rw [hc, List.length_cons] at hr
    split at h
    · simp only [Except.ok.injEq] at h
      simp only [← h, Next.rest, List.length_cons]
      omega
    · split at h <;> simp at h
  · simp at h

def readColon (s : Bytes) : Except Fault Bytes :=
  match skipBlank s with
  | [] => .error (.onto .endInObject [])
  | b :: rest =>
    if b = 0x3a then .ok rest else .error (.onto .expectedColon (b :: rest))

theorem readColon_length {s r : Bytes} (h : readColon s = .ok r) : r.length < s.length := by
  have hs := skipBlank_length s
  unfold readColon at h
  split at h
  · simp at h
  rename_i b rest hb
  rw [hb, List.length_cons] at hs
  split at h
  · simp only [Except.ok.injEq] at h
    rw [← h]
    omega
  · simp at h

/-- Reads a member: a key whose opening quote is the first byte, a colon and a value. -/
def readMember {α : Type} (value : Reader α) (s : Bytes) : Read (String × α) :=
  match readString (s.drop 1) with
  | .error e => .error e
  | .ok (key, rest) =>
    match readColon rest with
    | .error e => .error e
    | .ok rest =>
      match value.run rest with
      | .error e => .error e
      | .ok (v, rest) => .ok ((key, v), rest)

theorem readMember_length {α : Type} {value : Reader α} {s r : Bytes} {m : String × α}
    (h : readMember value s = .ok (m, r)) : r.length < s.length := by
  unfold readMember at h
  split at h
  · simp at h
  rename_i hk
  have hk := readString_length hk
  split at h
  · simp at h
  rename_i hc
  have hc := readColon_length hc
  split at h
  · simp at h
  rename_i hv
  have hv := value.shorter hv
  simp only [Except.ok.injEq, Prod.mk.injEq] at h
  rw [← h.2]
  simp only [List.length_drop] at hk
  omega

/-- The reader of members. -/
def member {α : Type} (value : Reader α) : Reader (String × α) :=
  ⟨readMember value, readMember_length⟩

/-! ### Loops -/

section Loops

variable {α σ : Type}

/-- Reads entries up to a closing bracket, from the state `acc`.  Gives the state after the
entries that were read, and the rest of the input or the fault that ended the loop. -/
def foldEntries (next : Bool → Bytes → Except Fault Next)
    (bound : ∀ {first : Bool} {s : Bytes} {n : Next},
      next first s = .ok n → n.rest.length ≤ s.length)
    (entry : Reader α) (step : σ → α → σ) (first : Bool) (acc : σ) (s : Bytes) :
    σ × Except Fault Bytes :=
  match _hn : next first s with
  | .error e => (acc, .error e)
  | .ok (.finished rest) => (acc, .ok rest)
  | .ok (.entry t) =>
    match _he : entry.run t with
    | .error e => (acc, .error e)
    | .ok (a, rest) => foldEntries next bound entry step false (step acc a) rest
termination_by s.length
decreasing_by
  have h₁ := bound _hn
  have h₂ := entry.shorter _he
  simp only [Next.rest] at h₁
  omega

theorem foldEntries_length {next : Bool → Bytes → Except Fault Next}
    {bound : ∀ {first : Bool} {s : Bytes} {n : Next},
      next first s = .ok n → n.rest.length ≤ s.length}
    {entry : Reader α} {step : σ → α → σ} {first : Bool} {acc acc' : σ} {s r : Bytes}
    (h : foldEntries next bound entry step first acc s = (acc', .ok r)) :
    r.length ≤ s.length := by
  fun_induction foldEntries next bound entry step first acc s with
  | case1 => simp at h
  | case2 first acc s rest hn =>
    simp only [Prod.mk.injEq, Except.ok.injEq] at h
    rw [← h.2]
    exact bound hn
  | case3 => simp at h
  | case4 first acc s t hn a rest he ih =>
    have h₁ := bound hn
    have h₂ := entry.shorter he
    have h₃ := ih h
    simp only [Next.rest] at h₁
    omega

/-- Reads the items of an array whose opening bracket has been read. -/
def foldItems (item : Reader α) (step : σ → α → σ) (acc : σ) (s : Bytes) :
    σ × Except Fault Bytes :=
  foldEntries nextItem nextItem_length item step true acc s

/-- Reads the members of an object whose opening bracket has been read. -/
def foldMembers (value : Reader α) (step : σ → String × α → σ) (acc : σ) (s : Bytes) :
    σ × Except Fault Bytes :=
  foldEntries nextMember nextMember_length (member value) step true acc s

end Loops

/-! ### Values -/

/-- Reads the rest of a word, and gives the value that it stands for. -/
def readWordValue (word : Bytes) (v : Value) (s : Bytes) : Read Value :=
  match readWord word s with
  | .error e => .error e
  | .ok rest => .ok (v, rest)

/-- Reads an array whose opening bracket has been read. -/
def readArray (inner : Reader Value) (s : Bytes) : Read Value :=
  match foldItems inner (fun items v => v :: items) [] s with
  | (_, .error e) => .error e
  | (items, .ok rest) => .ok (.array items.reverse, rest)

/-- Reads an object whose opening bracket has been read. -/
def readObject (inner : Reader Value) (s : Bytes) : Read Value :=
  match foldMembers inner (fun members m => insertMember m.1 m.2 members) [] s with
  | (_, .error e) => .error e
  | (members, .ok rest) => .ok (.object members, rest)

/-- Reads a value; `inner` reads what stands within its brackets, and `none` means that no bracket
may be opened. -/
def readValue (inner : Option (Reader Value)) (s : Bytes) : Read Value :=
  match skipBlank s with
  | [] => .error (.onto .endInValue [])
  | b :: rest =>
    if b = 0x6e then readWordValue [0x75, 0x6c, 0x6c] .null rest
    else if b = 0x74 then readWordValue [0x72, 0x75, 0x65] (.bool true) rest
    else if b = 0x66 then readWordValue [0x61, 0x6c, 0x73, 0x65] (.bool false) rest
    else if b = 0x2d then
      match readNumber false rest with
      | .error e => .error e
      | .ok (n, rest) => .ok (.number n, rest)
    else if isDigit b then
      match readNumber true (b :: rest) with
      | .error e => .error e
      | .ok (n, rest) => .ok (.number n, rest)
    else if b = 0x22 then
      match readString rest with
      | .error e => .error e
      | .ok (t, rest) => .ok (.string t, rest)
    else if b = 0x5b then
      match inner with
      | none => .error (.onto .tooDeep (b :: rest))
      | some inner => readArray inner rest
    else if b = 0x7b then
      match inner with
      | none => .error (.onto .tooDeep (b :: rest))
      | some inner => readObject inner rest
    else .error (.onto .expectedValue (b :: rest))

theorem readWordValue_length {word s r : Bytes} {v w : Value}
    (h : readWordValue word v s = .ok (w, r)) : r.length ≤ s.length := by
  unfold readWordValue at h
  split at h
  · simp at h
  · rename_i hw
    simp only [Except.ok.injEq, Prod.mk.injEq] at h
    rw [← h.2]
    exact readWord_length hw

theorem readArray_length {inner : Reader Value} {s r : Bytes} {v : Value}
    (h : readArray inner s = .ok (v, r)) : r.length ≤ s.length := by
  unfold readArray at h
  split at h
  · simp at h
  · rename_i hf
    simp only [Except.ok.injEq, Prod.mk.injEq] at h
    rw [← h.2]
    exact foldEntries_length hf

theorem readObject_length {inner : Reader Value} {s r : Bytes} {v : Value}
    (h : readObject inner s = .ok (v, r)) : r.length ≤ s.length := by
  unfold readObject at h
  split at h
  · simp at h
  · rename_i hf
    simp only [Except.ok.injEq, Prod.mk.injEq] at h
    rw [← h.2]
    exact foldEntries_length hf

theorem readValue_length {inner : Option (Reader Value)} {s r : Bytes} {v : Value}
    (h : readValue inner s = .ok (v, r)) : r.length < s.length := by
  have hs := skipBlank_length s
  unfold readValue at h
  split at h
  · simp at h
  rename_i b rest hb
  rw [hb, List.length_cons] at hs
  suffices r.length ≤ rest.length by omega
  split at h
  · exact readWordValue_length h
  split at h
  · exact readWordValue_length h
  split at h
  · exact readWordValue_length h
  split at h
  · split at h
    · simp at h
    · rename_i hn
      have := readNumber_length hn
      simp only [Except.ok.injEq, Prod.mk.injEq] at h
      rw [← h.2]
      omega
  split at h
  · split at h
    · simp at h
    · rename_i hn
      have := readNumber_length hn
      simp only [Except.ok.injEq, Prod.mk.injEq] at h
      simp only [List.length_cons] at this
      rw [← h.2]
      omega
  split at h
  · split at h
    · simp at h
    · rename_i ht
      have := readString_length ht
      simp only [Except.ok.injEq, Prod.mk.injEq] at h
      rw [← h.2]
      omega
  split at h
  · split at h
    · simp at h
    · exact readArray_length h
  split at h
  · split at h
    · simp at h
    · exact readObject_length h
  · simp at h

/-- **The reader of values** that may open `depth` brackets within each other. -/
def value : Nat → Reader Value
  | 0 => ⟨readValue none, readValue_length⟩
  | depth + 1 => ⟨readValue (some (value depth)), readValue_length⟩

/-- The number of brackets that a text may open within each other. -/
def maxDepth : Nat := 127

/-- Nothing but blanks is left of an input. -/
def readEnd (s : Bytes) : Except Fault Unit :=
  match skipBlank s with
  | [] => .ok ()
  | b :: rest => .error (.onto .trailingCharacters (b :: rest))

/-- A whole text as one value. -/
def parse (s : Bytes) : Except Fault Value :=
  match (value maxDepth).run s with
  | .error e => .error e
  | .ok (v, rest) =>
    match readEnd rest with
    | .error e => .error e
    | .ok () => .ok v

end Roster.Json
