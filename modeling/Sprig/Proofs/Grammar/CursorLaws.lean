import Sprig.Proofs.Grammar.Cursor
import Sprig.Proofs.Grammar.EarliestError

/-! Reading with a cursor against reading a stream: one law for each thing that a cursor does and
for each way of putting readers together. A cursor that follows a reader never leaves the tokens up
to the first end of text, although nothing keeps it from looking further: every time it is moved,
the token under it has been seen to be no end.
-/

namespace Sprig

/-- The only end of text is the one that the stream ends with. -/
structure TokenStream.IsEnded (stream : TokenStream) : Prop where
  stop : stream.stop.kind = .endOfText
  body : ∀ token ∈ stream.body, token.kind ≠ .endOfText

/-- A list of tokens begins with its stream, which ends at the first end of text. -/
theorem TokenStream.IsEnded.of_ofList? {stream : TokenStream} {tokens : List Token}
    (isStream : ofList? tokens = some stream)
    : stream.IsEnded ∧ stream.toList <+: tokens := by
  simp only [ofList?, Option.ite_none_right_eq_some, Option.map_eq_some_iff] at isStream
  obtain ⟨_, stop, found, rfl⟩ := isStream
  obtain ⟨isEnd, body, after, rfl, inner⟩ := List.find?_eq_some_iff_append.mp found
  have taken : (body ++ stop :: after).takeWhile (·.kind != .endOfText) = body := by
    rw [List.takeWhile_append_of_pos (by simpa using inner)]
    simp [beq_iff_eq.mp isEnd]
  rw [taken]
  exact ⟨⟨by simpa using isEnd, by simpa using inner⟩, after, by simp [toList]⟩

/-- The event happened within so many tokens and the one after them. Something that was read to its
end took up tokens.
-/
def CursorEvent.IsWithin (length : Nat) : CursorEvent → Prop
  | looked position => position ≤ length
  | lookedBack position => 0 < position ∧ position ≤ length
  | advanced position => position < length
  | completed _ start stop => start < stop ∧ stop ≤ length

/-- The cursor is inside a stream that its tokens begin with, and has never been elsewhere. -/
structure Cursor.Within (stream : TokenStream) (cursor : Cursor) : Prop where
  begins : stream.toList <+: cursor.tokens
  position_le : cursor.position ≤ stream.body.length
  history : ∀ event ∈ cursor.history, event.IsWithin stream.body.length

namespace Cursor.Within

variable {stream : TokenStream} {cursor : Cursor} (within : cursor.Within stream)

include within

/-- A note about a place inside the stream leaves a cursor within it. -/
theorem noting {event : CursorEvent} (isWithin : event.IsWithin stream.body.length)
    : (cursor.noting event).Within stream :=
  ⟨within.begins, within.position_le, List.forall_mem_cons.mpr ⟨isWithin, within.history⟩⟩

/-- A cursor that stands before the end may move on by one and is still within the stream. -/
theorem moved (inside : cursor.position < stream.body.length) : cursor.moved.Within stream :=
  ⟨within.begins, inside, within.history⟩

/-- The cursor stands before the first token that is left. -/
theorem getElem?_eq {rest : List Token} (left : stream.body.drop cursor.position = rest)
    : cursor.tokens[cursor.position]? = some (stream.front rest) := by
  have inside : cursor.position < stream.toList.length := by
    rw [TokenStream.toList, List.length_append]
    exact Nat.lt_succ_of_le within.position_le
  have same : stream.toList.drop cursor.position = rest ++ [stream.stop] := by
    rw [TokenStream.toList, List.drop_append_of_le_length within.position_le, left]
  rw [List.prefix_iff_getElem?.mp within.begins _ inside, ← List.getElem?_eq_getElem inside,
    ← List.head?_drop, same]
  cases rest <;> rfl

/-- A cursor within the stream splits its body into what was read and what is left, so the two
lengths add up. -/
theorem length_left {rest : List Token} (left : stream.body.drop cursor.position = rest)
    : cursor.position + rest.length = stream.body.length := by
  rw [← left, List.length_drop]
  have le := within.position_le
  omega

end Cursor.Within

namespace Scan

variable {α β : Type}

/-- A sequence of scans runs the first and hands its value and cursor to the second; the second is
not run where the first stops. -/
theorem run_bind (scan : Scan α) (next : α → Scan β) (cursor : Cursor)
    : (scan >>= next).run.run cursor
      = match scan.run.run cursor with
        | (.ok value, after) => (next value).run.run after
        | (.error halt, after) => (.error halt, after) := by
  rw [ExceptT.run_bind, StateT.run_bind]
  rcases scan.run.run cursor with ⟨_ | _, after⟩ <;> rfl

/-- A cursor ends as a reader of the stream does: with the same result and the same tokens left, or
with the same error.
-/
inductive Agrees (stream : TokenStream)
    : Except CursorHalt α × Cursor → Except Refusal (α × List Token) → Prop where
  | read (value : α) {cursor : Cursor} {rest : List Token} : cursor.Within stream →
      stream.body.drop cursor.position = rest →
      Agrees stream (.ok value, cursor) (.ok (value, rest))
  | unmet (expected : Expectation) {cursor : Cursor} {rest : List Token} : cursor.Within stream →
      rest <:+ stream.body →
      Agrees stream (.error (.failed (.rejected ⟨expected, stream.front rest⟩)), cursor)
        (.error (.unmet expected rest))
  | tooDeep {cursor : Cursor} : cursor.Within stream →
      Agrees stream (.error (.failed .tooDeep), cursor) (.error .tooDeep)

/-- From where so many tokens of the stream are left, the cursor comes to the given end. -/
def Ends (stream : TokenStream) (rest : List Token) (scan : Scan α)
    (result : Except Refusal (α × List Token)) : Prop :=
  ∀ cursor : Cursor, cursor.Within stream → stream.body.drop cursor.position = rest →
    Agrees stream (scan.run.run cursor) result

namespace Ends

variable {stream : TokenStream} {rest rest' : List Token}

/-- A value given back reads nothing, so it ends where it began. -/
theorem pure (value : α) : Ends stream rest (Pure.pure value) (.ok (value, rest)) :=
  fun _ within left => .read value within left

/-- A refusal at tokens that are left agrees with an unmet expectation there. -/
theorem refuse (expected : Expectation) (suffix : rest' <:+ stream.body)
    : Ends stream rest (Scan.refuse expected (stream.front rest') : Scan α)
        (.error (.unmet expected rest')) :=
  fun _ within _ => .unmet expected within suffix

/-- Running out of depth agrees with running out of depth. -/
theorem tooDeep : Ends stream rest (Scan.tooDeep : Scan α) (.error .tooDeep) :=
  fun _ within _ => .tooDeep within

/-- After a first scan that reads, a sequence ends as its second scan does, by cases on how the
first agrees. -/
theorem bind_ok {first : Scan α} {next : α → Scan β} {value : α}
    {result : Except Refusal (β × List Token)}
    (starts : Ends stream rest first (.ok (value, rest')))
    (continues : Ends stream rest' (next value) result)
    : Ends stream rest (first >>= next) result := by
  intro cursor within left
  have ends := starts cursor within left
  rw [run_bind]
  generalize first.run.run cursor = done at ends
  cases ends with
  | read _ within left => exact continues _ within left

/-- A sequence ends where its first scan does when that one refuses. -/
theorem bind_error {first : Scan α} {next : α → Scan β} {refusal : Refusal}
    (starts : Ends stream rest first (.error refusal))
    : Ends stream rest (first >>= next) (.error refusal) := by
  intro cursor within left
  have ends := starts cursor within left
  rw [run_bind]
  generalize first.run.run cursor = done at ends
  cases ends with
  | unmet expected within suffix => exact .unmet expected within suffix
  | tooDeep within => exact .tooDeep within

/-- A cursor that follows one reader and then another. -/
theorem bind {first : Scan α} {next : α → Scan β} {reader : Reader α} {next' : α → Reader β}
    {tokens : List Token} (starts : Ends stream rest first (reader tokens))
    (continues : ∀ value rest', reader tokens = .ok (value, rest') →
      Ends stream rest' (next value) (next' value rest'))
    : Ends stream rest (first >>= next) ((reader >>= next') tokens) := by
  cases reads : reader tokens with
  | error refusal =>
      rw [Reader.bind_of_error reads]
      exact (reads ▸ starts).bind_error
  | ok pair =>
      rw [Reader.bind_of_ok reads]
      exact (reads ▸ starts).bind_ok (continues pair.1 pair.2 reads)

/-- Converting the value on both sides keeps the agreement, as `bind` with `pure`. -/
theorem map {scan : Scan α} {reader : Reader α} {tokens : List Token}
    (ends : Ends stream rest scan (reader tokens)) (convert : α → β)
    : Ends stream rest (convert <$> scan) ((convert <$> reader) tokens) := by
  rw [← bind_pure_comp, ← bind_pure_comp]
  exact ends.bind fun value rest' _ => .pure (convert value)

/-- What is left of a stream is an end of it. -/
theorem of_suffix {scan : Scan α} {result : Except Refusal (α × List Token)}
    (ends : rest <:+ stream.body → Ends stream rest scan result)
    : Ends stream rest scan result :=
  fun cursor within left => ends (left ▸ List.drop_suffix _ _) cursor within left

-- What a cursor can do

/-- Looking ahead gives the front of what is left and moves nothing, by `getElem?_eq`. -/
theorem peek : Ends stream rest Scan.peek (.ok (stream.front rest, rest)) := by
  intro cursor within left
  have looks : Scan.peek.run.run cursor
      = (found cursor.tokens[cursor.position]?).run.run
          (cursor.noting (.looked cursor.position)) := rfl
  rw [looks, within.getElem?_eq left]
  exact .read _ (within.noting within.position_le) left

section Ended

variable (ended : stream.IsEnded)

include ended

/-- The cursor is at the end just when nothing is left: the end is a token of its own kind that
the body does not hold. -/
theorem isAtEnd : Ends stream rest Scan.isAtEnd (.ok (rest.isEmpty, rest)) := by
  refine of_suffix fun suffix => ?_
  have isEnd : ((stream.front rest).kind == .endOfText) = rest.isEmpty := by
    cases rest with
    | nil => simp [TokenStream.front, ended.stop]
    | cons token rest =>
        have isOther := ended.body token (suffix.subset (by simp))
        simpa [TokenStream.front] using isOther
  rw [← isEnd]
  exact peek.bind_ok (.pure _)

/-- Checking for a kind other than the end is asking what the rest starts with; at the end the
cursor sees the end token, which is of another kind. -/
theorem check {kind : TokenKind} (isOther : kind ≠ .endOfText)
    : Ends stream rest (Scan.check kind) (.ok (Reader.startsWith kind rest, rest)) := by
  have starts : ((stream.front rest).kind == kind) = Reader.startsWith kind rest := by
    cases rest with
    | nil => simpa [TokenStream.front, ended.stop, Reader.startsWith] using isOther.symm
    | cons token rest => rfl
  rw [← starts]
  exact peek.bind_ok (.pure _)

/-- The cursor is moved over a token of the stream, which is then the one before it. -/
theorem advance {token : Token} : Ends stream (token :: rest) Scan.advance (.ok (token, rest)) := by
  have inside {cursor : Cursor} (within : cursor.Within stream)
      (left : stream.body.drop cursor.position = token :: rest)
      : cursor.position < stream.body.length := by
    have length := within.length_left left
    rw [List.length_cons] at length
    omega
  have moves : Ends stream (token :: rest) (modify Cursor.moved >>= fun _ => previous)
      (.ok (token, rest)) := by
    intro cursor within left
    have looksBack : (modify Cursor.moved >>= fun _ => previous : Scan Token).run.run cursor
        = (found cursor.tokens[cursor.position]?).run.run
            (cursor.moved.noting (.lookedBack (cursor.position + 1))) := rfl
    have left' : stream.body.drop (cursor.position + 1) = rest := by
      rw [← List.tail_drop, left, List.tail_cons]
    have isBehind : (CursorEvent.lookedBack (cursor.position + 1)).IsWithin stream.body.length :=
      ⟨Nat.succ_pos _, inside within left⟩
    rw [looksBack, within.getElem?_eq left]
    exact .read token ((within.moved (inside within left)).noting isBehind) left'
  intro cursor within left
  exact (isAtEnd ended).bind_ok moves _ (within.noting (inside within left)) left

/-- Accepting a kind is taking it if it is there, by the two answers of `check`. -/
theorem accept {kind : TokenKind} (isOther : kind ≠ .endOfText)
    : Ends stream rest (Scan.accept kind) (Reader.takeIf kind rest) := by
  have checks : Ends stream rest (Scan.check kind) _ := check ended isOther
  cases starts : Reader.startsWith kind rest with
  | false =>
      rw [starts] at checks
      simp only [Reader.takeIf, starts]
      exact checks.bind_ok (.pure false)
  | true =>
      rw [starts] at checks
      simp only [Reader.takeIf, starts]
      cases rest with
      | nil => exact absurd starts Bool.false_ne_true
      | cons token rest => exact checks.bind_ok ((advance ended).bind_ok (.pure true))

/-- Requiring a kind is taking it or refusing at the front, by cases on what is left and on the
kind of its first token. -/
theorem consume {kind : TokenKind} (isOther : kind ≠ .endOfText) (expected : Expectation)
    : Ends stream rest (Scan.consume kind expected) (Reader.take kind expected rest) := by
  have checks : Ends stream rest (Scan.check kind) _ := check ended isOther
  have refuses : Ends stream rest (Scan.peek >>= Scan.refuse expected : Scan Token)
      (.error (.unmet expected rest)) :=
    .of_suffix fun suffix => peek.bind_ok (.refuse expected suffix)
  cases rest with
  | nil => exact checks.bind_ok refuses
  | cons token rest =>
      by_cases isKind : token.kind = kind
      · simp only [Reader.startsWith_cons, isKind, beq_self_eq_true] at checks
        simp only [Reader.take, isKind, if_true]
        exact checks.bind_ok (advance ended)
      · simp only [Reader.startsWith_cons, beq_eq_false_iff_ne.mpr isKind] at checks
        simp only [Reader.take, isKind, if_false]
        exact checks.bind_ok refuses

/-- A token that something else ends with. -/
theorem closing {kind : TokenKind} (isOther : kind ≠ .endOfText) {expected : Expectation}
    (make : Token → β)
    : Ends stream rest (Scan.consume kind expected >>= fun token => Pure.pure (make token))
        ((Reader.take kind expected >>= fun token => Pure.pure (make token)) rest) :=
  (consume ended isOther expected).bind fun token _ _ => .pure (make token)

end Ended

/-- Something that takes up tokens is noted with its two ends. -/
theorem completing {scan : Scan α} {result : Except Refusal (α × List Token)}
    (ends : Ends stream rest scan result)
    (shorter : ∀ value rest', result = .ok (value, rest') → rest'.length < rest.length)
    (part : CursorPart)
    : Ends stream rest (Scan.completing part scan) result := by
  intro cursor within left
  have start := within.length_left left
  have done := ends cursor within left
  have starts : (Scan.completing part scan).run.run cursor
      = (scan >>= fun value => get >>= fun after =>
          note (.completed part cursor.position after.position) >>= fun _ =>
            Pure.pure value).run.run cursor := rfl
  rw [starts, run_bind]
  generalize scan.run.run cursor = run at done
  cases done with
  | unmet expected within suffix => exact .unmet expected within suffix
  | tooDeep within => exact .tooDeep within
  | @read value after rest' within' left' =>
      have stop := within'.length_left left'
      have less := shorter value rest' rfl
      have tookUp : (CursorEvent.completed part cursor.position after.position).IsWithin
          stream.body.length := ⟨by omega, within'.position_le⟩
      exact .read value (within'.noting tookUp) left'

-- Loops

section Loops

variable {condition : Scan Bool} {step : α → Scan α} {condition' : List Token → Bool}
  {step' : α → Reader α} (atEnd : condition' [] = false)
  (shorter : ∀ state tokens value rest, condition' tokens = true →
    step' state tokens = .ok (value, rest) → rest.length < tokens.length)
  (stops : ∀ rest, condition' rest = false → Ends stream rest condition (.ok (false, rest)))
  (continues : ∀ rest, condition' rest = true →
    ∃ middle, Ends stream rest condition (.ok (true, middle))
      ∧ ∀ state, Ends stream middle (step state) (step' state rest))

include atEnd shorter stops continues

/-- A loop that has more rounds than tokens left does not run out of rounds. -/
theorem rounds {count : Nat} (enough : rest.length < count) (state : α)
    : Ends stream rest (Scan.rounds condition step count state)
        (Reader.loop condition' step' state rest) := by
  induction count generalizing rest state with
  | zero => exact absurd enough (Nat.not_lt_zero _)
  | succ count ih =>
      cases holds : condition' rest with
      | false =>
          rw [Reader.loop_of_false state holds]
          exact (stops rest holds).bind_ok (.pure state)
      | true =>
          obtain ⟨middle, goesOn, steps⟩ := continues rest holds
          rw [Reader.loop_of_true atEnd shorter state holds]
          refine goesOn.bind_ok ?_
          cases stepped : step' state rest with
          | error refusal =>
              rw [Reader.bind_of_error stepped]
              exact (stepped ▸ steps state).bind_error
          | ok pair =>
              obtain ⟨value, rest'⟩ := pair
              have less := shorter state rest value rest' holds stepped
              rw [Reader.bind_of_ok stepped]
              exact (stepped ▸ steps state).bind_ok (ih (by omega) value)

/-- A loop of the cursor ends as the loop of the reader. The cursor allows one round for each
token of its list, which is more than the tokens that are left, so `rounds` applies. -/
theorem repeatWhile (state : α)
    : Ends stream rest (Scan.repeatWhile condition step state)
        (Reader.loop condition' step' state rest) := by
  intro cursor within left
  have enough : rest.length < cursor.tokens.length := by
    have begins := within.begins.length_le
    have length := within.length_left left
    rw [TokenStream.toList, List.length_append, List.length_singleton] at begins
    omega
  exact rounds atEnd shorter stops continues enough state cursor within left

end Loops

section Items

variable {condition : Scan Bool} {item : Scan α} {condition' : List Token → Bool}
  {item' : Reader α}

/-- Reading items while a condition holds is a loop that gathers them in reverse, on both sides. -/
theorem many (atEnd : condition' [] = false)
    (shorter : ∀ tokens value rest, condition' tokens = true →
      item' tokens = .ok (value, rest) → rest.length < tokens.length)
    (stops : ∀ rest, condition' rest = false → Ends stream rest condition (.ok (false, rest)))
    (continues : ∀ rest, condition' rest = true →
      ∃ middle, Ends stream rest condition (.ok (true, middle))
        ∧ Ends stream middle item (item' rest))
    : Ends stream rest (Scan.many condition item) (Reader.many condition' item' rest) := by
  rw [Reader.many_eq_loop]
  refine (repeatWhile atEnd (fun found tokens value rest holds stepped => ?_) stops
    (fun rest holds => ?_) []).map List.reverse
  · obtain ⟨value, reads, _⟩ := Reader.map_eq_ok.mp stepped
    exact shorter tokens value rest holds reads
  · obtain ⟨middle, goesOn, items⟩ := continues rest holds
    exact ⟨middle, goesOn, fun found => items.map (· :: found)⟩

/-- Items with commas between them. The cursor takes a comma when it asks whether there is one. -/
theorem separated (ended : stream.IsEnded) {close : TokenKind} (isOther : close ≠ .endOfText)
    (items : ∀ rest, Ends stream rest item (item' rest))
    (shrinks : ∀ tokens value rest, item' tokens = .ok (value, rest) →
      rest.length ≤ tokens.length)
    : Ends stream rest (Scan.separated close item) (Reader.separated close item' rest) := by
  have checks : Ends stream rest (Scan.check close) _ := check ended isOther
  -- the comma is taken by the condition of the cursor, but by the item of the reader
  have others (rest : List Token)
      : Ends stream rest (Scan.many (Scan.accept .comma) item)
          (Reader.many (Reader.startsWith .comma) (Reader.takeIf .comma >>= fun _ => item')
            rest) := by
    have accepts (rest : List Token)
        : Ends stream rest (Scan.accept .comma) (Reader.takeIf .comma rest) :=
      accept ended (by decide)
    refine many rfl (fun tokens value rest starts reads => ?_) (fun rest stopped => ?_)
      fun rest starts => ?_
    · cases tokens with
      | nil => exact absurd starts Bool.false_ne_true
      | cons comma tokens =>
          rw [Reader.takeIf_comma_bind item' ⟨comma, by simpa using starts⟩] at reads
          exact Nat.lt_succ_of_le (shrinks tokens value rest reads)
    · have none := accepts rest
      rwa [Reader.takeIf, if_neg (by simp [stopped])] at none
    · cases rest with
      | nil => exact absurd starts Bool.false_ne_true
      | cons comma rest =>
          refine ⟨rest, ?_, ?_⟩
          · have one := accepts (comma :: rest)
            rwa [Reader.takeIf, if_pos starts] at one
          · rw [Reader.takeIf_comma_bind item' ⟨comma, by simpa using starts⟩]
            exact items rest
  cases closes : Reader.startsWith close rest with
  | true =>
      rw [closes] at checks
      simp only [Reader.separated, closes, if_true]
      exact checks.bind_ok (.pure [])
  | false =>
      rw [closes] at checks
      simp only [Reader.separated, closes, Bool.false_eq_true, if_false]
      refine checks.bind_ok ((items rest).bind fun first rest' _ => ?_)
      exact (others rest').bind fun row _ _ => .pure (first :: row)

end Items

end Ends

end Scan

end Sprig
