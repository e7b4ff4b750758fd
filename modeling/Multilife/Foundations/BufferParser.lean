import Mathlib.Data.List.Basic

/-!
# Parsing a buffer while it fills up

A parser looks at the front of a buffer.  It takes a message off it, or finds that there
is none yet and returns what is still worth keeping; whoever owns the buffer appends what
arrives and calls the parser until there is no message.

* `Incremental`: what arrives later does not change what the parser has decided.
* `drain_append`: then parsing may stop anywhere and go on later.
* `foldl_feed`: so only the concatenation of the fragments matters.
* `messages_of_part`: and what is cut off at the end is missing at the end.
-/

/-- A parser of the front of a buffer: the message, if there is a whole one, and the
buffer it leaves.  A message is never empty. -/
structure BufferParser (α β : Type*) where
  parse : List α → Option β × List α
  shrinks : ∀ {buffer m rest}, parse buffer = (some m, rest) → rest.length < buffer.length

namespace BufferParser

variable {α β : Type*} (p : BufferParser α β)

/-- Take messages off the buffer until there is none. -/
def drain (buffer : List α) : List β × List α :=
  match _h : p.parse buffer with
  | (none, rest) => ([], rest)
  | (some m, rest) => (m :: (drain rest).1, (drain rest).2)
termination_by buffer.length
decreasing_by all_goals exact p.shrinks _h

/-- One more fragment arrives. -/
def feed (s : List β × List α) (fragment : List α) : List β × List α :=
  (s.1 ++ (p.drain (s.2 ++ fragment)).1, (p.drain (s.2 ++ fragment)).2)

/-- What arrives later does not change what the parser has decided. -/
structure Incremental : Prop where
  some_append : ∀ {buffer m rest}, p.parse buffer = (some m, rest) →
    ∀ more, p.parse (buffer ++ more) = (some m, rest ++ more)
  none_append : ∀ {buffer rest}, p.parse buffer = (none, rest) →
    ∀ more, p.parse (buffer ++ more) = p.parse (rest ++ more)

variable {p} {buffer rest : List α} {m : β}

theorem drain_of_none (h : p.parse buffer = (none, rest)) : p.drain buffer = ([], rest) := by
  rw [drain]
  split
  · next heq =>
    rw [h] at heq
    cases heq
    rfl
  · next heq =>
    rw [h] at heq
    cases heq

theorem drain_of_some (h : p.parse buffer = (some m, rest)) :
    p.drain buffer = (m :: (p.drain rest).1, (p.drain rest).2) := by
  rw [drain]
  split
  · next heq =>
    rw [h] at heq
    cases heq
  · next heq =>
    rw [h] at heq
    cases heq
    rfl

/-- Buffers that parse alike are drained alike. -/
theorem drain_congr {buffer' : List α} (h : p.parse buffer = p.parse buffer') :
    p.drain buffer = p.drain buffer' := by
  rcases hparse : p.parse buffer with ⟨found, rest⟩
  have hparse' := h.symm.trans hparse
  cases found with
  | none => rw [drain_of_none hparse, drain_of_none hparse']
  | some m => rw [drain_of_some hparse, drain_of_some hparse']

/-- **Messages in a row** are taken off one by one. -/
theorem drain_flatMap {encode : β → List α} (hempty : p.parse [] = (none, [])) {ms : List β}
    (h : ∀ m ∈ ms, ∀ rest, p.parse (encode m ++ rest) = (some m, rest)) :
    p.drain (ms.flatMap encode) = (ms, []) := by
  induction ms with
  | nil => exact drain_of_none hempty
  | cons m ms ih =>
    rw [List.flatMap_cons, drain_of_some (h m List.mem_cons_self _),
      ih fun m' hm' => h m' (List.mem_cons_of_mem m hm')]

variable (hp : p.Incremental)
include hp

/-- **Parsing may stop anywhere**: what is kept is parsed before what comes later. -/
theorem drain_append (first second : List α) :
    p.drain (first ++ second) = p.feed (p.drain first) second := by
  rcases hparse : p.parse first with ⟨found, rest⟩
  cases found with
  | none =>
    rw [drain_congr (hp.none_append hparse second), drain_of_none hparse, feed, List.nil_append]
  | some m =>
    have hshorter := p.shrinks hparse
    rw [drain_of_some (hp.some_append hparse second), drain_append rest second,
      drain_of_some hparse, feed, feed, List.cons_append]
termination_by first.length

/-- What has been taken off a stream that breaks off. -/
theorem messages_of_part {first whole : List α} (h : first <+: whole) :
    (p.drain first).1 <+: (p.drain whole).1 := by
  obtain ⟨second, rfl⟩ := h
  rw [drain_append hp, feed]
  exact List.prefix_append _ _

/-- **Fragments do not matter.** -/
theorem foldl_feed (first : List α) (fragments : List (List α)) :
    fragments.foldl p.feed (p.drain first) = p.drain (first ++ fragments.flatten) := by
  induction fragments generalizing first with
  | nil => rw [List.foldl_nil, List.flatten_nil, List.append_nil]
  | cons fragment fragments ih =>
    rw [List.foldl_cons, ← drain_append hp, ih, List.flatten_cons, List.append_assoc]

end BufferParser
