import Mathlib

/-!
# Fragmented messages

A message is sent whole, or as a first part, any number of further parts and a last one.  `Grammar`
says which letters play which of these roles, and `Reads` takes in a sequence letter by letter.

The two ways of saying it serve different ends.  `stream` and `Initial` are formal languages, by
which the order of the parts is stated; nothing is said there about how a sequence came about.
`Reads` is what a program keeps up as it adds one letter after another, with a single bit of memory,
whether a message is open.  The first follows from the second.

* **`initial_of_reads`** — what can be taken in so is the beginning of a sequence of messages.
* **`Reads.unique`** — a sequence says whether it leaves a message open.
-/

namespace Fragments

open Computability

variable {α : Type*}

/-- The letters that are whole messages, and those that are parts of one. -/
structure Grammar (α : Type*) where
  whole : Set α
  first : Set α
  middle : Set α
  last : Set α

namespace Grammar

variable {g : Grammar α}

/-- The words of one letter. -/
def letters (s : Set α) : Language α := {w | ∃ a ∈ s, w = [a]}

lemma mem_letters {s : Set α} {a : α} (h : a ∈ s) : [a] ∈ letters s := ⟨a, h, rfl⟩

variable (g) in
/-- A message. -/
def message : Language α :=
  letters g.whole + letters g.first * (letters g.middle)∗ * letters g.last

variable (g) in
/-- **The sequences of messages.** -/
def stream : Language α := g.message∗

variable (g) in
/-- The beginnings of such sequences. -/
def Initial (w : List α) : Prop := ∃ w' ∈ g.stream, w <+: w'

variable (g) in
/-- A sequence that is taken in letter by letter, and whether it leaves a message open. -/
inductive Reads : List α → Bool → Prop where
  | nil : Reads [] false
  | whole {w : List α} {a : α} (h : Reads w false) (ha : a ∈ g.whole) : Reads (w ++ [a]) false
  | first {w : List α} {a : α} (h : Reads w false) (ha : a ∈ g.first) : Reads (w ++ [a]) true
  | middle {w : List α} {a : α} (h : Reads w true) (ha : a ∈ g.middle) : Reads (w ++ [a]) true
  | last {w : List α} {a : α} (h : Reads w true) (ha : a ∈ g.last) : Reads (w ++ [a]) false

variable (g) in
/-- What has been read when a message is open, or when none is. -/
def read : Bool → Language α
  | false => g.stream
  | true => g.stream * (letters g.first * (letters g.middle)∗)

lemma stream_mul_message : g.stream * g.message ≤ g.stream := kstar_mul_le_kstar

/-- The last part completes the message. -/
lemma read_mul_last : g.read true * letters g.last ≤ g.stream := by
  refine le_trans ?_ stream_mul_message
  rw [read, mul_assoc]
  exact mul_le_mul_right le_add_self _

/-- What has been taken in is in the language for its last bit. -/
lemma mem_read_of_reads {w : List α} {b : Bool} (h : g.Reads w b) : w ∈ g.read b := by
  induction h with
  | nil =>
      have hone : 1 ≤ g.stream := one_le_kstar
      exact hone Language.nil_mem_one
  | whole _ ha ih =>
      have hmessage : letters g.whole ≤ g.message := le_self_add
      exact stream_mul_message (Language.append_mem_mul ih (hmessage (mem_letters ha)))
  | first _ ha ih =>
      have hfirst : letters g.first ≤ letters g.first * (letters g.middle)∗ := by
        conv_lhs => rw [← mul_one (letters g.first)]
        exact mul_le_mul_right one_le_kstar _
      exact Language.append_mem_mul ih (hfirst (mem_letters ha))
  | middle _ ha ih =>
      have hmore : g.read true * letters g.middle ≤ g.read true := by
        rw [read, mul_assoc, mul_assoc]
        exact mul_le_mul_right (mul_le_mul_right kstar_mul_le_kstar _) _
      exact hmore (Language.append_mem_mul ih (mem_letters ha))
  | last _ ha ih => exact read_mul_last (Language.append_mem_mul ih (mem_letters ha))

/-- **What can be taken in is the beginning of a sequence of messages.** -/
theorem initial_of_reads (hlast : g.last.Nonempty) {w : List α} {b : Bool} (h : g.Reads w b) :
    g.Initial w := by
  have hread := mem_read_of_reads h
  cases b with
  | false => exact ⟨w, hread, List.prefix_rfl⟩
  | true =>
      obtain ⟨a, ha⟩ := hlast
      exact ⟨w ++ [a], read_mul_last (Language.append_mem_mul hread (mem_letters ha)),
        List.prefix_append w [a]⟩

/-- A message is left open by one of its parts other than the last. -/
lemma reads_true {w : List α} (h : g.Reads w true) :
    ∃ w' a, w = w' ++ [a] ∧ a ∈ g.first ∪ g.middle := by
  cases h with
  | first _ ha => exact ⟨_, _, rfl, .inl ha⟩
  | middle _ ha => exact ⟨_, _, rfl, .inr ha⟩

/-- No message is open at the start, after a whole message, and after a last part. -/
lemma reads_false {w : List α} (h : g.Reads w false) :
    w = [] ∨ ∃ w' a, w = w' ++ [a] ∧ a ∈ g.whole ∪ g.last := by
  cases h with
  | nil => exact .inl rfl
  | whole _ ha => exact .inr ⟨_, _, rfl, .inl ha⟩
  | last _ ha => exact .inr ⟨_, _, rfl, .inr ha⟩

/-- No sequence leaves a message open and none, if no letter does. -/
lemma not_reads_both (hd : Disjoint (g.first ∪ g.middle) (g.whole ∪ g.last)) {w : List α}
    (hopen : g.Reads w true) (hclosed : g.Reads w false) : False := by
  obtain ⟨w', a, rfl, ha⟩ := reads_true hopen
  rcases reads_false hclosed with hnil | ⟨w'', b, heq, hb⟩
  · exact List.concat_ne_nil a w' hnil
  · obtain ⟨-, rfl⟩ := List.append_singleton_inj.mp heq
    exact Set.disjoint_left.mp hd ha hb

/-- **A sequence says whether it leaves a message open.** -/
theorem Reads.unique (hd : Disjoint (g.first ∪ g.middle) (g.whole ∪ g.last)) {w : List α}
    {b b' : Bool} (h : g.Reads w b) (h' : g.Reads w b') : b = b' := by
  cases b <;> cases b'
  · rfl
  · exact (not_reads_both hd h' h).elim
  · exact (not_reads_both hd h h').elim
  · rfl

end Grammar

end Fragments
