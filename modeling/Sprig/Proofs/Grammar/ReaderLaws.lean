import Sprig.Proofs.Grammar.Phrase
import Sprig.Tree.Reader

/-! Laws of readers. A reader is compared with derivations in two directions: what it accepts
is spelled by a derivation, and what a derivation spells it accepts unless the nesting limit
is reached. A third law says when the limit cannot be reached.
-/

namespace Sprig.Reader

open Grammar

variable {α β δ : Type}

-- What a composed reader accepts

/-- A sequence succeeds just when its parts do, the second on what the first left. -/
theorem bind_eq_ok {first : Reader α} {next : α → Reader β} {tokens rest : List Token}
    {result : β}
    : (first >>= next) tokens = .ok (result, rest)
      ↔ ∃ value middle, first tokens = .ok (value, middle)
        ∧ next value middle = .ok (result, rest) := by
  change (first tokens >>= fun pair => next pair.1 pair.2) = _ ↔ _
  cases first tokens with
  | error refusal => simp [bind, Except.bind]
  | ok pair =>
      obtain ⟨value, middle⟩ := pair
      constructor
      · exact fun continues => ⟨value, middle, rfl, continues⟩
      · rintro ⟨_, _, ⟨rfl, rfl⟩, continues⟩
        exact continues

/-- A converted reader succeeds just when the reader does, leaving the same tokens. -/
theorem map_eq_ok {reader : Reader α} {convert : α → β} {tokens rest : List Token}
    {result : β}
    : (convert <$> reader) tokens = .ok (result, rest)
      ↔ ∃ value, reader tokens = .ok (value, rest) ∧ convert value = result := by
  change (reader tokens >>= fun pair => pure (convert pair.1, pair.2)) = _ ↔ _
  cases reader tokens with
  | error refusal => simp [bind, Except.bind]
  | ok pair =>
      obtain ⟨value, middle⟩ := pair
      simp only [bind, Except.bind, pure, Except.pure, Except.ok.injEq, Prod.mk.injEq]
      constructor
      · rintro ⟨rfl, rfl⟩
        exact ⟨value, ⟨rfl, rfl⟩, rfl⟩
      · rintro ⟨_, ⟨rfl, rfl⟩, rfl⟩
        exact ⟨rfl, rfl⟩

/-- A value given back leaves all tokens. -/
@[simp] theorem pure_apply (value : α) (tokens : List Token)
    : (pure value : Reader α) tokens = .ok (value, tokens) :=
  rfl

/-- A kind is taken just when it is the kind of the first token. -/
theorem take_eq_ok {kind : TokenKind} {expected : Expectation} {tokens rest : List Token}
    {token : Token}
    : take kind expected tokens = .ok (token, rest)
      ↔ tokens = token :: rest ∧ token.kind = kind := by
  cases tokens with
  | nil => simp [take]
  | cons head tail =>
      by_cases isKind : head.kind = kind
      · simp only [take, isKind, if_true, Except.ok.injEq, Prod.mk.injEq, List.cons.injEq]
        constructor
        · rintro ⟨rfl, rfl⟩
          exact ⟨⟨rfl, rfl⟩, isKind⟩
        · exact fun same => same.1
      · simp only [take, isKind, if_false, reduceCtorEq, List.cons.injEq, false_iff]
        rintro ⟨⟨rfl, _⟩, same⟩
        exact isKind same

/-- A terminal of the required kind is taken. -/
@[simp] theorem take_terminal {kind : TokenKind} (token : Terminal kind)
    (expected : Expectation) (rest : List Token)
    : take kind expected (token.val :: rest) = .ok (token.val, rest) :=
  take_eq_ok.mpr ⟨rfl, token.property⟩

/-- Tokens start with the kind of the first one. -/
@[simp] theorem startsWith_cons (kind : TokenKind) (token : Token) (rest : List Token)
    : startsWith kind (token :: rest) = (token.kind == kind) :=
  rfl

/-- A terminal of the optional kind is taken. -/
theorem takeIf_of_eq {kind : TokenKind} (token : Terminal kind) (rest : List Token)
    : takeIf kind (token.val :: rest) = .ok (true, rest) := by
  simp [takeIf, token.property]

/-- A token of another kind is left where it is. -/
theorem takeIf_of_ne {kind : TokenKind} {token : Token} (other : token.kind ≠ kind)
    (rest : List Token)
    : takeIf kind (token :: rest) = .ok (false, token :: rest) := by
  simp [takeIf, other]

-- Results up to the nesting limit

/-- The result is the expected one, unless the nesting limit was reached. -/
def UpToDepth (actual expected : Except Refusal β) : Prop :=
  actual = .error .tooDeep ∨ actual = expected

/-- Every result agrees with itself. -/
theorem UpToDepth.refl (result : Except Refusal β) : UpToDepth result result :=
  Or.inr rfl

/-- Equal results agree. -/
theorem UpToDepth.of_eq {actual expected : Except Refusal β} (same : actual = expected)
    : UpToDepth actual expected :=
  Or.inr same

/-- Agreement up to the limit composes: once the first side is too deep it stays so. -/
theorem UpToDepth.trans {actual middle expected : Except Refusal β}
    (first : UpToDepth actual middle) (second : UpToDepth middle expected)
    : UpToDepth actual expected := by
  rcases first with deep | rfl
  · exact Or.inl deep
  · exact second

/-- A sequence agrees with what its second part gives, or its first part was too deep and so is
the whole. -/
theorem UpToDepth.bind {first : Reader α} {next : α → Reader β} {tokens middle : List Token}
    {value : α} {expected : Except Refusal (β × List Token)}
    (reads : UpToDepth (first tokens) (.ok (value, middle)))
    (continues : UpToDepth (next value middle) expected)
    : UpToDepth ((first >>= next) tokens) expected := by
  have unfolded : (first >>= next) tokens
      = (first tokens >>= fun pair => next pair.1 pair.2) := rfl
  rcases reads with deep | same
  · exact Or.inl (by rw [unfolded, deep]; rfl)
  · rw [unfolded, same]
    exact continues

/-- Converting the value on both sides keeps the agreement. -/
theorem UpToDepth.map {reader : Reader α} {convert : α → β} {tokens rest : List Token}
    {value : α} (reads : UpToDepth (reader tokens) (.ok (value, rest)))
    : UpToDepth ((convert <$> reader) tokens) (.ok (convert value, rest)) := by
  rcases reads with deep | same
  · exact Or.inl (by
      change (reader tokens >>= fun pair => pure (convert pair.1, pair.2)) = _
      rw [deep]
      rfl)
  · exact Or.inr (map_eq_ok.mpr ⟨value, same, rfl⟩)

/-- A terminal is taken and reading goes on after it. -/
theorem UpToDepth.take {kind : TokenKind} (token : Terminal kind) {expected : Expectation}
    {next : Token → Reader β} {rest : List Token} {result : Except Refusal (β × List Token)}
    (continues : UpToDepth (next token.val rest) result)
    : UpToDepth ((Reader.take kind expected >>= next) (token.val :: rest)) result :=
  UpToDepth.bind (.of_eq (take_terminal token expected rest)) continues

-- Loops

/-- What every step of a loop preserves holds when the loop ends, and then its condition has
failed. Every step has to take a token, since the tokens at the outset bound the steps.
-/
theorem repeatWhile_invariant {condition : List Token → Bool} {step : α → Reader α}
    (Holds : α → List Token → Prop) (atEnd : condition [] = false)
    (preserved : ∀ state tokens next rest, condition tokens = true → Holds state tokens →
      step state tokens = .ok (next, rest) → Holds next rest ∧ rest.length < tokens.length)
    {bound : List Token} {state final : α} {tokens rest : List Token}
    (enough : tokens.length ≤ bound.length) (start : Holds state tokens)
    (run : repeatWhile condition step bound state tokens = .ok (final, rest))
    : Holds final rest ∧ condition rest = false := by
  induction bound generalizing state tokens with
  | nil =>
      obtain rfl : tokens = [] := List.length_eq_zero_iff.mp (by simpa using enough)
      simp only [repeatWhile, pure_apply, Except.ok.injEq, Prod.mk.injEq] at run
      obtain ⟨rfl, rfl⟩ := run
      exact ⟨start, atEnd⟩
  | cons _ bound ih =>
      simp only [repeatWhile] at run
      split at run
      · next continues =>
        obtain ⟨middle, left, stepped, run⟩ := bind_eq_ok.mp run
        obtain ⟨holds, shorter⟩ := preserved state tokens middle left continues start stepped
        exact ih (by simp only [List.length_cons] at enough; omega) holds run
      · next stopped =>
        simp only [Except.ok.injEq, Prod.mk.injEq] at run
        obtain ⟨rfl, rfl⟩ := run
        exact ⟨start, by simpa using stopped⟩

/-- A loop whose condition fails at the outset gives back its state. -/
theorem repeatWhile_of_false {condition : List Token → Bool} {step : α → Reader α}
    (bound : List Token) (state : α) {tokens : List Token} (stopped : condition tokens = false)
    : repeatWhile condition step bound state tokens = .ok (state, tokens) := by
  cases bound with
  | nil => rfl
  | cons _ bound => simp [repeatWhile, stopped]

/-- A step of a loop that has tokens left to bound it. -/
theorem repeatWhile_of_true {condition : List Token → Bool} {step : α → Reader α}
    {first : Token} {bound : List Token} {state : α} {tokens : List Token}
    (continues : condition tokens = true)
    : repeatWhile condition step (first :: bound) state tokens
      = (step state >>= repeatWhile condition step bound) tokens := by
  simp [repeatWhile, continues]

/-- Items that are read spell parts in turn. The invariant of the loop is that the parts gathered
so far and the tokens left spell the tokens it began with. -/
theorem many_sound {condition : List Token → Bool} {item : Reader α}
    (spelling : δ → List Token) (tree : δ → α) (atEnd : condition [] = false)
    (sound : ∀ tokens value rest, condition tokens = true → item tokens = .ok (value, rest) →
      ∃ part, tokens = spelling part ++ rest ∧ tree part = value ∧ spelling part ≠ [])
    {tokens rest : List Token} {values : List α}
    (read : many condition item tokens = .ok (values, rest))
    : ∃ parts : List δ, tokens = parts.flatMap spelling ++ rest ∧ parts.map tree = values
      ∧ condition rest = false := by
  simp only [many] at read
  cases run : repeatWhile condition (fun found => (· :: found) <$> item) tokens [] tokens with
  | error refusal => simp [run, bind, Except.bind] at read
  | ok pair =>
      obtain ⟨found, left⟩ := pair
      simp only [run, bind, Except.bind, Except.ok.injEq, Prod.mk.injEq] at read
      obtain ⟨rfl, rfl⟩ := read
      -- the items found so far, last one first, spell the tokens read so far
      obtain ⟨⟨parts, spelled, trees⟩, stopped⟩ := repeatWhile_invariant
        (fun found left => ∃ parts : List δ,
          tokens = parts.flatMap spelling ++ left ∧ parts.map tree = found.reverse)
        atEnd (by
          rintro found left next rest continues ⟨parts, spelled, trees⟩ stepped
          obtain ⟨value, reads, rfl⟩ := map_eq_ok.mp stepped
          obtain ⟨part, rfl, rfl, taken⟩ := sound left value rest continues reads
          refine ⟨⟨parts ++ [part], by simp [spelled], by simp [trees]⟩, ?_⟩
          have := List.length_pos_iff.mpr taken
          simp only [List.length_append]
          omega)
        (Nat.le_refl _) ⟨[], by simp, rfl⟩ run
      exact ⟨parts, spelled, trees, stopped⟩

/-- A loop over items reads what the items spell, one after the other. What an item may be
followed by is a condition that the rest and the spelling of every item satisfy.
-/
theorem many_complete {condition : List Token → Bool} {item : Reader α}
    (spelling : δ → List Token) (tree : δ → α) (Follows : List Token → Prop) (parts : List δ)
    {rest : List Token} (stopped : condition rest = false) (follows : Follows rest)
    (separates : ∀ part ∈ parts, ∀ after, Follows (spelling part ++ after))
    (continues : ∀ part ∈ parts, ∀ after, condition (spelling part ++ after) = true)
    (taken : ∀ part ∈ parts, spelling part ≠ [])
    (reads : ∀ part ∈ parts, ∀ after, Follows after →
      UpToDepth (item (spelling part ++ after)) (.ok (tree part, after)))
    : UpToDepth (many condition item (parts.flatMap spelling ++ rest))
        (.ok (parts.map tree, rest)) := by
  have loop : ∀ (bound : List Token) (found : List α),
      (parts.flatMap spelling ++ rest).length ≤ bound.length →
      UpToDepth
        (repeatWhile condition (fun found => (· :: found) <$> item) bound found
          (parts.flatMap spelling ++ rest))
        (.ok ((parts.map tree).reverse ++ found, rest)) := by
    induction parts with
    | nil => exact fun bound found _ => .of_eq (repeatWhile_of_false bound found stopped)
    | cons part others ih =>
        intro bound found enough
        have nonempty := List.length_pos_iff.mpr (taken part (by simp))
        have after : Follows (others.flatMap spelling ++ rest) := by
          cases others with
          | nil => exact follows
          | cons next _ =>
              simpa [List.append_assoc] using separates next (by simp) _
        simp only [List.flatMap_cons, List.length_append] at enough
        obtain ⟨first, bound, rfl⟩ := List.exists_cons_of_length_pos
          (show 0 < bound.length by omega)
        rw [List.flatMap_cons, List.append_assoc,
          repeatWhile_of_true (continues part (by simp) _)]
        refine (reads part (by simp) _ after).map.bind ?_
        simpa using ih (fun p h => separates p (by simp [h])) (fun p h => continues p (by simp [h]))
          (fun p h => taken p (by simp [h])) (fun p h => reads p (by simp [h]))
          bound (tree part :: found)
          (by simp only [List.length_append, List.length_cons] at enough ⊢; omega)
  simp only [many]
  rcases loop _ [] (Nat.le_refl _) with deep | same
  · exact Or.inl (by rw [deep]; rfl)
  · exact Or.inr (by rw [same]; simp [bind, Except.bind])

-- Rows of items

/-- An item after a comma is read as the item by itself. -/
theorem takeIf_comma_bind (item : Reader α) (comma : Terminal .comma) (rest : List Token)
    : (takeIf .comma >>= fun _ => item) (comma.val :: rest) = item rest := by
  change (takeIf .comma (comma.val :: rest) >>= fun pair => item pair.2) = _
  rw [takeIf_of_eq]
  rfl

/-- Items between commas spell a row: the first by itself and the others by `many_sound`, each
with its comma. -/
theorem separated_sound {close : TokenKind} {item : Reader α} (spelling : δ → List Token)
    (tree : δ → α)
    (sound : ∀ tokens value rest, item tokens = .ok (value, rest) →
      ∃ part, tokens = spelling part ++ rest ∧ tree part = value)
    {tokens rest : List Token} {values : List α}
    (read : separated close item tokens = .ok (values, rest))
    : ∃ row : Row δ, tokens = row.yield spelling ++ rest ∧ row.toList.map tree = values := by
  simp only [separated] at read
  split at read
  · simp only [Except.ok.injEq, Prod.mk.injEq] at read
    obtain ⟨rfl, rfl⟩ := read
    exact ⟨.empty, rfl, rfl⟩
  · obtain ⟨first, middle, readsFirst, read⟩ := bind_eq_ok.mp read
    obtain ⟨others, left, readsOthers, read⟩ := bind_eq_ok.mp read
    simp only [pure_apply, Except.ok.injEq, Prod.mk.injEq] at read
    obtain ⟨rfl, rfl⟩ := read
    obtain ⟨part, rfl, rfl⟩ := sound _ _ _ readsFirst
    obtain ⟨parts, rfl, rfl, _⟩ := many_sound
      (fun other : Terminal .comma × δ => other.1.val :: spelling other.2)
      (fun other => tree other.2) rfl (by
        intro tokens value rest starts reads
        cases tokens with
        | nil => simp [startsWith] at starts
        | cons comma tokens =>
            have isComma : comma.kind = .comma := by simpa using starts
            rw [takeIf_comma_bind item ⟨comma, isComma⟩] at reads
            obtain ⟨part, rfl, rfl⟩ := sound _ _ _ reads
            exact ⟨(⟨comma, isComma⟩, part), rfl, rfl, by simp⟩)
      readsOthers
    exact ⟨.items part parts, by simp [Row.yield], by simp [Row.toList, Function.comp_def]⟩

/-- A row is read back as its items, where the closing sign follows it and starts no item: the
first by itself and the others by `many_complete`. -/
theorem separated_complete {close : TokenKind} {item : Reader α} (spelling : δ → List Token)
    (tree : δ → α) (Follows : List Token → Prop) (row : Row δ) {rest : List Token}
    (closes : startsWith close rest = true) (stopped : startsWith .comma rest = false)
    (follows : Follows rest)
    (separates : ∀ (comma : Terminal .comma) (after : List Token), Follows (comma.val :: after))
    (opens : ∀ part ∈ row.toList, ∀ after, startsWith close (spelling part ++ after) = false)
    (reads : ∀ part ∈ row.toList, ∀ after, Follows after →
      UpToDepth (item (spelling part ++ after)) (.ok (tree part, after)))
    : UpToDepth (separated close item (row.yield spelling ++ rest))
        (.ok (row.toList.map tree, rest)) := by
  cases row with
  | empty => exact .of_eq (by simp [separated, Row.yield, Row.toList, closes])
  | items first others =>
      have member : ∀ other ∈ others, other.2 ∈ (Row.items first others).toList := by
        intro other isOther
        exact List.mem_cons_of_mem _ (List.mem_map_of_mem isOther)
      simp only [separated, Row.yield, List.append_assoc, opens first (by simp [Row.toList]),
        Bool.false_eq_true, if_false]
      refine UpToDepth.bind (reads first (by simp [Row.toList]) _ ?_) ?_
      · cases others with
        | nil => exact follows
        | cons other _ => exact separates other.1 _
      · refine UpToDepth.bind
          (many_complete (fun other : Terminal .comma × δ => other.1.val :: spelling other.2)
            (fun other => tree other.2) Follows others stopped follows ?_ ?_ ?_ ?_)
          (.of_eq ?_)
        · exact fun other _ after => separates other.1 _
        · exact fun other _ after => by simp [other.1.property]
        · exact fun other _ => by simp
        · intro other isOther after afterFollows
          change UpToDepth
            ((takeIf .comma >>= fun _ => item) (other.1.val :: (spelling other.2 ++ after))) _
          rw [takeIf_comma_bind item other.1]
          exact reads other.2 (member other isOther) after afterFollows
        · simp [Row.toList, Function.comp_def]

-- Readers that stay clear of the nesting limit

/-- On at most `size` tokens the reader does not reach the nesting limit, and it never leaves
more tokens than it was given.
-/
def Settles (size : Nat) (reader : Reader α) : Prop :=
  ∀ tokens : List Token, tokens.length ≤ size →
    reader tokens ≠ .error .tooDeep
    ∧ ∀ value rest, reader tokens = .ok (value, rest) → rest.length ≤ tokens.length

/-- A reader that is used after a token has been taken. -/
theorem Settles.tail {rest : List Token} {reader : Reader α}
    (settles : Settles rest.length reader) (token : Token)
    : reader rest ≠ .error .tooDeep
      ∧ ∀ value left, reader rest = .ok (value, left) → left.length ≤ (token :: rest).length := by
  obtain ⟨shallow, shrinks⟩ := settles rest (Nat.le_refl _)
  exact ⟨shallow, fun value left read => Nat.le_succ_of_le (shrinks value left read)⟩

/-- A value given back leaves as many tokens as there were. -/
theorem Settles.pure (size : Nat) (value : α) : Settles size (Pure.pure value : Reader α) := by
  intro tokens _
  refine ⟨by simp, ?_⟩
  intro _ rest read
  simp only [pure_apply, Except.ok.injEq, Prod.mk.injEq] at read
  exact Nat.le_of_eq (congrArg List.length read.2.symm)

/-- A sequence settles, since the first part leaves no more tokens for the second. -/
theorem Settles.bind {size : Nat} {first : Reader α} {next : α → Reader β}
    (settlesFirst : Settles size first) (settlesNext : ∀ value, Settles size (next value))
    : Settles size (first >>= next) := by
  intro tokens fits
  obtain ⟨shallow, shrinks⟩ := settlesFirst tokens fits
  constructor
  · have unfolded : (first >>= next) tokens
        = (first tokens >>= fun pair => next pair.1 pair.2) := rfl
    rw [unfolded]
    cases read : first tokens with
    | error refusal =>
        intro deep
        obtain rfl : refusal = .tooDeep := by simpa [Bind.bind, Except.bind] using deep
        exact shallow read
    | ok pair =>
        exact (settlesNext pair.1 pair.2 (Nat.le_trans (shrinks pair.1 pair.2 read) fits)).1
  · intro value rest read
    obtain ⟨between, middle, readsFirst, readsNext⟩ := bind_eq_ok.mp read
    have shorter := shrinks between middle readsFirst
    have remaining := settlesNext between middle (Nat.le_trans shorter fits)
    exact Nat.le_trans (remaining.2 value rest readsNext) shorter

/-- Converting the value changes nothing of what is left. -/
theorem Settles.map {size : Nat} {reader : Reader α} (convert : α → β)
    (settles : Settles size reader)
    : Settles size (convert <$> reader) :=
  settles.bind (fun value => Settles.pure size (convert value))

/-- A refusal is no lack of depth. -/
theorem Settles.refuse (size : Nat) (expected : Expectation)
    : Settles size (Reader.refuse expected : Reader α) :=
  fun _ _ => ⟨by simp [Reader.refuse], by simp [Reader.refuse]⟩

/-- Taking a token of a kind needs no depth and leaves one token less. -/
theorem Settles.take (size : Nat) (kind : TokenKind) (expected : Expectation)
    : Settles size (Reader.take kind expected) := by
  intro tokens _
  constructor
  · cases tokens with
    | nil => simp [Reader.take]
    | cons token rest => simp only [Reader.take]; split <;> simp
  · intro token rest read
    obtain ⟨rfl, _⟩ := take_eq_ok.mp read
    simp

/-- Taking an optional token needs no depth and leaves no more tokens. -/
theorem Settles.takeIf (size : Nat) (kind : TokenKind) : Settles size (Reader.takeIf kind) := by
  intro tokens _
  refine ⟨by simp [Reader.takeIf], ?_⟩
  intro value rest read
  simp only [Reader.takeIf, Except.ok.injEq] at read
  split at read
  · obtain ⟨_, rfl⟩ := Prod.mk.inj read
    simp
  · obtain ⟨_, rfl⟩ := Prod.mk.inj read
    exact Nat.le_refl _

/-- A loop settles when its steps do, by induction on its bound. -/
theorem Settles.repeatWhile {size : Nat} {condition : List Token → Bool} {step : α → Reader α}
    (settles : ∀ state, Settles size (step state)) (bound : List Token) (state : α)
    : Settles size (Reader.repeatWhile condition step bound state) := by
  induction bound generalizing state with
  | nil => exact Settles.pure size state
  | cons _ bound ih =>
      intro tokens fits
      by_cases continues : condition tokens = true
      · rw [repeatWhile_of_true continues]
        exact (settles state).bind ih tokens fits
      · rw [repeatWhile_of_false _ state (by simpa using continues)]
        exact Settles.pure size state tokens fits

/-- Items settle, as the loop that gathers them. -/
theorem Settles.many {size : Nat} {item : Reader α} (settles : Settles size item)
    (condition : List Token → Bool)
    : Settles size (Reader.many condition item) := by
  intro tokens fits
  exact (Settles.repeatWhile (fun found => settles.map (· :: found)) tokens []).bind
    (fun found => Settles.pure size found.reverse) tokens fits

/-- Items between commas settle: the first by itself, the others after their commas. -/
theorem Settles.separated {size : Nat} {item : Reader α} (settles : Settles size item)
    (close : TokenKind)
    : Settles size (Reader.separated close item) := by
  intro tokens fits
  by_cases closes : startsWith close tokens = true
  · simp [Reader.separated, closes]
  · simp only [Reader.separated, closes, Bool.false_eq_true, if_false]
    have rest := ((Settles.takeIf size .comma).bind (fun _ => settles)).many (startsWith .comma)
    exact (settles.bind (fun first => rest.bind (fun others =>
      Settles.pure size (first :: others)))) tokens fits

end Sprig.Reader
