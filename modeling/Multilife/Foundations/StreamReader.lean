import Mathlib.Data.List.Basic

/-!
# Reading a stream by demand

A reader waits, in each state, for a certain number of symbols, and reacts once they are
all there: it moves to another state and yields events.  The symbols arrive in fragments
that know nothing of the reader's demands; what has arrived and is not yet read is kept.

* `deliver_read`: exactly the symbols a reader waits for make it react.
* `deliver_append`: reading may stop anywhere and go on later.
* `foldl_feed_start`: so only the concatenation of the fragments matters.
-/

/-- How many symbols a reader waits for in a state (none: it has stopped), and what it
does with them. -/
structure StreamReader (σ α β : Type*) where
  demand : σ → ℕ
  react : σ → List α → σ × List β

namespace StreamReader

variable {σ α β : Type*}

/-- What has come of a stream so far: the events, the state, and the symbols that are
not read yet. -/
structure Outcome (σ α β : Type*) where
  events : List β
  state : σ
  unread : List α

/-- The same, after some earlier events. -/
def Outcome.prepend (o : Outcome σ α β) (events : List β) : Outcome σ α β :=
  { o with events := events ++ o.events }

@[simp] theorem Outcome.prepend_nil (o : Outcome σ α β) : o.prepend [] = o := rfl

@[simp] theorem Outcome.prepend_prepend (o : Outcome σ α β) (events events' : List β) :
    (o.prepend events).prepend events' = o.prepend (events' ++ events) := by
  simp [Outcome.prepend]

@[simp] theorem Outcome.state_prepend (o : Outcome σ α β) (events : List β) :
    (o.prepend events).state = o.state := rfl

@[simp] theorem Outcome.unread_prepend (o : Outcome σ α β) (events : List β) :
    (o.prepend events).unread = o.unread := rfl

@[simp] theorem Outcome.events_prepend (o : Outcome σ α β) (events : List β) :
    (o.prepend events).events = events ++ o.events := rfl

variable (r : StreamReader σ α β)

/-- The reader has what it waits for. -/
def Ready (s : σ) (unread : List α) : Prop := 0 < r.demand s ∧ r.demand s ≤ unread.length

instance (s : σ) (unread : List α) : Decidable (r.Ready s unread) :=
  inferInstanceAs (Decidable (_ ∧ _))

/-- Read as long as the demand is met. -/
def deliver (s : σ) (unread : List α) : Outcome σ α β :=
  if _h : r.Ready s unread then
    let reaction := r.react s (unread.take (r.demand s))
    (deliver reaction.1 (unread.drop (r.demand s))).prepend reaction.2
  else ⟨[], s, unread⟩
termination_by unread.length
decreasing_by
  obtain ⟨hpos, hle⟩ := _h
  simp only [List.length_drop]
  omega

/-- One more fragment arrives. -/
def feed (o : Outcome σ α β) (fragment : List α) : Outcome σ α β :=
  (r.deliver o.state (o.unread ++ fragment)).prepend o.events

variable {r} {s : σ}

theorem deliver_of_not_ready {unread : List α} (h : ¬ r.Ready s unread) :
    r.deliver s unread = ⟨[], s, unread⟩ := by
  rw [deliver, dif_neg h]

/-- Nothing has arrived. -/
@[simp] theorem deliver_nil : r.deliver s [] = ⟨[], s, []⟩ := by
  refine deliver_of_not_ready fun h => ?_
  have hpos := h.1
  have hle := h.2
  rw [List.length_nil] at hle
  omega

/-- **One read**: the symbols the reader waits for, whatever follows them. -/
theorem deliver_read {symbols : List α} (hpos : 0 < symbols.length)
    (hlength : symbols.length = r.demand s) (rest : List α) :
    r.deliver s (symbols ++ rest) =
      (r.deliver (r.react s symbols).1 rest).prepend (r.react s symbols).2 := by
  have hready : r.Ready s (symbols ++ rest) := by
    rw [Ready, ← hlength, List.length_append]
    omega
  rw [deliver, dif_pos hready]
  simp [← hlength]

/-- The same, for a known reaction. -/
theorem deliver_react {symbols : List α} {s' : σ} {events : List β}
    (hreact : r.react s symbols = (s', events)) (hpos : 0 < symbols.length)
    (hlength : symbols.length = r.demand s) (rest : List α) :
    r.deliver s (symbols ++ rest) = (r.deliver s' rest).prepend events := by
  rw [deliver_read hpos hlength, hreact]

/-- **Reading may stop anywhere**: what is left unread is read before what comes later. -/
theorem deliver_append (s : σ) (first second : List α) :
    r.deliver s (first ++ second) = r.feed (r.deliver s first) second := by
  by_cases h : r.Ready s first
  · obtain ⟨hpos, hle⟩ := h
    -- one read, and the rest of `first` is shorter
    have hsplit : first = first.take (r.demand s) ++ first.drop (r.demand s) :=
      (List.take_append_drop _ _).symm
    have hlength : (first.take (r.demand s)).length = r.demand s := List.length_take_of_le hle
    have hshorter : (first.drop (r.demand s)).length < first.length := by
      rw [List.length_drop]
      omega
    have ih := deliver_append (r.react s (first.take (r.demand s))).1 (first.drop (r.demand s)) second
    rw [hsplit, List.append_assoc, deliver_read (by omega) hlength, deliver_read (by omega) hlength,
      ih]
    simp [feed]
  · rw [deliver_of_not_ready h]
    simp [feed]
termination_by first.length

/-- What has been read of a stream that breaks off. -/
theorem events_of_part (s : σ) {first whole : List α} (h : first <+: whole) :
    (r.deliver s first).events <+: (r.deliver s whole).events := by
  obtain ⟨second, rfl⟩ := h
  rw [deliver_append, feed, Outcome.events_prepend]
  exact List.prefix_append _ _

/-- **Fragments do not matter.** -/
theorem foldl_feed (s : σ) (first : List α) (fragments : List (List α)) :
    fragments.foldl r.feed (r.deliver s first) = r.deliver s (first ++ fragments.flatten) := by
  induction fragments generalizing first with
  | nil => simp
  | cons fragment fragments ih =>
    rw [List.foldl_cons, ← deliver_append, ih, List.flatten_cons, List.append_assoc]

/-- The outcome of a stream that arrives in fragments, from the start. -/
theorem foldl_feed_start (s : σ) (fragments : List (List α)) :
    fragments.foldl r.feed ⟨[], s, []⟩ = r.deliver s fragments.flatten := by
  rw [← deliver_nil (r := r), foldl_feed, List.nil_append]

/-! ## A stream of messages -/

/-- **Messages in a row.**  If the reader turns each message into its event and is then
in the state it started from, it turns a concatenation of messages into their events. -/
theorem deliver_flatMap {μ : Type*} {encode : μ → List α} {event : μ → β}
    (hmessage : ∀ m rest, r.deliver s (encode m ++ rest) = (r.deliver s rest).prepend [event m])
    (messages : List μ) :
    r.deliver s (messages.flatMap encode) = ⟨messages.map event, s, []⟩ := by
  induction messages with
  | nil => simp
  | cons m messages ih => rw [List.flatMap_cons, hmessage, ih, List.map_cons]; rfl

end StreamReader
