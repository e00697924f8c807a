import Sprig.Proofs.Grammar.ReaderLaws

/-! Readers look one token ahead. What a reader makes of some tokens does not depend on what comes
after the next one, and where it refuses the next one, the tokens before can be completed.
-/

namespace Sprig

/-- A token that is supplied where one of its kind is missing. -/
def Token.ofKind (kind : TokenKind) : Token :=
  ⟨kind, kind.name, none, .start⟩

namespace Reader

variable {α β : Type} {Entry Follows : List Token → Prop} {reader : Reader α} {tokens : List Token}

/-- How a reader decides on tokens. It takes those in front, and does the same before any other
tokens that start like the ones it leaves, or that satisfy `Follows`. Where it refuses, tokens can
be added that let it succeed before those that satisfy `Follows`. If it takes no token at all,
what it then stands before satisfies `Entry`.
-/
inductive Decides (Entry Follows : List Token → Prop) (reader : Reader α) (tokens : List Token)
    : Prop where
  | read (front : List Token) (value : α) {rest : List Token} (divided : tokens = front ++ rest)
      (goesOn : ∀ back, back.head? = rest.head? ∨ Follows back →
        reader (front ++ back) = .ok (value, back))
      (enters : front = [] → ∀ back, Follows back → Entry back)
  | unmet (front added : List Token) (value : α) {rest : List Token} {expected : Expectation}
      (divided : tokens = front ++ rest) (known : expected ≠ .operator)
      (refuses : ∀ back, back.head? = rest.head? →
        reader (front ++ back) = .error (.unmet expected back))
      (inner : ∀ token ∈ added, token.kind ≠ .endOfText)
      (mended : ∀ back, Follows back → reader (front ++ (added ++ back)) = .ok (value, back))
      (enters : front = [] → ∀ back, Follows back → Entry (added ++ back))
  | tooDeep (deep : reader tokens = .error .tooDeep)

/-- The condition only looks at the next token. -/
def LooksAhead (condition : List Token → Bool) : Prop :=
  ∀ tokens back : List Token, back.head? = tokens.head? → condition back = condition tokens

/-- What a list of tokens starts with is seen from its first token alone. -/
theorem startsWith_looksAhead (kind : TokenKind) : LooksAhead (startsWith kind) := by
  intro tokens back same
  simp only [startsWith, same]

/-- Tokens that start with one kind start with no other. -/
theorem startsWith_of_ne {kind other : TokenKind} (ne : kind ≠ other)
    (starts : startsWith kind tokens = true)
    : startsWith other tokens = false := by
  cases tokens with
  | nil => rfl
  | cons token rest =>
      have isKind : token.kind = kind := by simpa using starts
      simpa [isKind] using ne

/-- Whether tokens are left is seen from the first one alone. -/
theorem isEmpty_looksAhead : LooksAhead (·.isEmpty) := by
  intro tokens back same
  cases tokens with
  | nil => rw [List.head?_eq_none_iff.mp same]
  | cons token rest =>
      obtain ⟨tail, rfl⟩ := List.head?_eq_some_iff.mp same
      rfl

/-- The opposite of a condition on the first token is one too. -/
theorem LooksAhead.not {condition : List Token → Bool} (looks : LooksAhead condition)
    : LooksAhead (fun tokens => !condition tokens) :=
  fun tokens back same => congrArg (! ·) (looks tokens back same)

/-- Two conditions on the first token make one. -/
theorem LooksAhead.and {condition other : List Token → Bool} (looks : LooksAhead condition)
    (otherLooks : LooksAhead other)
    : LooksAhead (fun tokens => condition tokens && other tokens) := by
  intro tokens back same
  simp only [looks tokens back same, otherLooks tokens back same]

/-- The next token is one of those taken, if there are any. -/
theorem head_append_or {front rest back : List Token} {P : List Token → Prop}
    (next : front = [] → back.head? = rest.head? ∨ P back)
    : (front ++ back).head? = (front ++ rest).head? ∨ P (front ++ back) := by
  cases front with
  | nil => exact next rfl
  | cons => exact Or.inl rfl

/-- After a first reader that succeeds, a sequence goes on with its value and what it left. -/
theorem bind_of_ok {first : Reader α} {next : α → Reader β} {rest : List Token} {value : α}
    (reads : first tokens = .ok (value, rest))
    : (first >>= next) tokens = next value rest := by
  change (first tokens >>= fun pair => next pair.1 pair.2) = _
  rw [reads]
  rfl

/-- A sequence is refused where its first reader is. -/
theorem bind_of_error {first : Reader α} {next : α → Reader β} {refusal : Refusal}
    (refused : first tokens = .error refusal)
    : (first >>= next) tokens = .error refusal := by
  change (first tokens >>= fun pair => next pair.1 pair.2) = _
  rw [refused]
  rfl

-- What follows from a decision

/-- A reader that succeeds leaves an end of the tokens. -/
theorem Decides.of_ok (decides : Decides Entry Follows reader tokens) {value : α}
    {rest : List Token} (reads : reader tokens = .ok (value, rest))
    : ∃ front, tokens = front ++ rest ∧ (front = [] → ∀ back, Follows back → Entry back) := by
  cases decides with
  | read front value divided goesOn enters =>
      have same := goesOn _ (Or.inl rfl)
      rw [← divided, reads] at same
      obtain ⟨rfl, rfl⟩ := Prod.mk.inj (Except.ok.inj same)
      exact ⟨front, divided, enters⟩
  | unmet _ _ _ divided _ refuses _ _ _ =>
      have same := refuses _ rfl
      rw [← divided, reads] at same
      exact nomatch same
  | tooDeep deep =>
      rw [reads] at deep
      exact nomatch deep

/-- A reader that refuses the next token refuses it whatever follows, and could have gone on with
others. An operator is never what is missing.
-/
theorem Decides.of_unmet (decides : Decides Entry Follows reader tokens) {expected : Expectation}
    {rest : List Token} (refused : reader tokens = .error (.unmet expected rest))
    : expected ≠ .operator ∧ ∃ front added value, tokens = front ++ rest
      ∧ (∀ back, back.head? = rest.head? →
          reader (front ++ back) = .error (.unmet expected back))
      ∧ (∀ token ∈ added, token.kind ≠ .endOfText)
      ∧ ∀ back, Follows back → reader (front ++ (added ++ back)) = .ok (value, back) := by
  cases decides with
  | read _ _ divided goesOn _ =>
      have same := goesOn _ (Or.inl rfl)
      rw [← divided, refused] at same
      exact nomatch same
  | unmet front added value divided known refuses inner mended _ =>
      have same := refuses _ rfl
      rw [← divided, refused] at same
      obtain ⟨rfl, rfl⟩ := Refusal.unmet.inj (Except.error.inj same)
      exact ⟨known, front, added, value, divided, refuses, inner, mended⟩
  | tooDeep deep =>
      rw [refused] at deep
      exact nomatch deep

/-- A reader that cannot be content with nothing takes a token. -/
theorem Decides.shorter (decides : Decides Entry Follows reader tokens) (ends : Follows [])
    (starts : ¬ Entry []) {value : α} {rest : List Token}
    (reads : reader tokens = .ok (value, rest))
    : rest.length < tokens.length := by
  obtain ⟨front, divided, enters⟩ := decides.of_ok reads
  have taken : 0 < front.length :=
    List.length_pos_iff.mpr fun nothing => starts (enters nothing [] ends)
  rw [divided, List.length_append]
  omega

/-- A reader that may stand before the end but cannot enter there takes at least one token. -/
theorem Decides.takes (decides : Decides Entry Follows reader tokens) (ends : Follows [])
    (starts : ¬ Entry []) (value : α)
    : reader tokens ≠ .ok (value, tokens) :=
  fun reads => Nat.lt_irrefl _ (decides.shorter ends starts reads)

/-- Where there is nothing to read, tokens can be supplied that the reader takes before any that
satisfy `Follows`.
-/
theorem Decides.completes (decides : Decides Entry Follows reader [])
    (shallow : reader [] ≠ .error .tooDeep)
    : ∃ (added : List Token) (value : α), (∀ token ∈ added, token.kind ≠ .endOfText)
      ∧ ∀ back, Follows back →
          Entry (added ++ back) ∧ reader (added ++ back) = .ok (value, back) := by
  cases decides with
  | read front value divided goesOn enters =>
      obtain rfl := (List.append_eq_nil_iff.mp divided.symm).1
      exact ⟨[], value, by simp, fun back next => ⟨enters rfl back next, goesOn back (Or.inr next)⟩⟩
  | unmet front added value divided _ _ inner mended enters =>
      obtain rfl := (List.append_eq_nil_iff.mp divided.symm).1
      exact ⟨added, value, inner, fun back next => ⟨enters rfl back next, mended back next⟩⟩
  | tooDeep deep => exact absurd deep shallow

/-- A reader decides under weaker demands on what it enters and for fewer followers. -/
theorem Decides.mono (decides : Decides Entry Follows reader tokens)
    {Entry' Follows' : List Token → Prop} (entries : ∀ back, Entry back → Entry' back)
    (follows : ∀ back, Follows' back → Follows back)
    : Decides Entry' Follows' reader tokens := by
  cases decides with
  | read front value divided goesOn enters =>
      refine .read front value divided (fun back next => ?_) fun nothing back next => ?_
      · exact goesOn back (next.imp_right (follows back))
      · exact entries back (enters nothing back (follows back next))
  | unmet front added value divided known refuses inner mended enters =>
      refine .unmet front added value divided known refuses inner (fun back next => ?_)
        fun nothing back next => ?_
      · exact mended back (follows back next)
      · exact entries _ (enters nothing back (follows back next))
  | tooDeep deep => exact .tooDeep deep

/-- What may be followed by anything may be followed by something. -/
theorem Decides.everywhere (decides : Decides Entry (fun _ => True) reader tokens)
    : Decides Entry Follows reader tokens :=
  decides.mono (fun _ entry => entry) fun _ _ => trivial

/-- A reader that decides does so whatever it enters. -/
theorem Decides.unrestricted (decides : Decides Entry Follows reader tokens)
    : Decides (fun _ => True) Follows reader tokens :=
  decides.mono (fun _ _ => trivial) fun _ follows => follows

/-- Readers that agree on tokens of a certain start decide alike on them. -/
theorem Decides.congr {other : Reader α} {condition : List Token → Bool}
    (decides : Decides Entry Follows other tokens) (looks : LooksAhead condition)
    (agree : ∀ back, condition back = true → reader back = other back)
    (entries : ∀ back, Entry back → condition back = true) (starts : condition tokens = true)
    : Decides Entry Follows reader tokens := by
  cases decides with
  | @read front value rest divided goesOn enters =>
      subst divided
      refine .read front value rfl (fun back next => ?_) enters
      rcases head_append_or fun nothing => next.imp_right (enters nothing back) with same | entry
      · rw [agree _ ((looks _ _ same).trans starts)]
        exact goesOn back next
      · rw [agree _ (entries _ entry)]
        exact goesOn back next
  | @unmet front added value rest expected divided known refuses inner mended enters =>
      subst divided
      refine .unmet front added value rfl known (fun back next => ?_) inner
        (fun back follows => ?_) enters
      · have same : (front ++ back).head? = (front ++ rest).head? := by
          simp only [List.head?_append, next]
        rw [agree _ ((looks _ _ same).trans starts)]
        exact refuses back next
      · rcases head_append_or fun nothing => Or.inr (enters nothing back follows) with same | entry
        · rw [agree _ ((looks _ _ same).trans starts)]
          exact mended back follows
        · rw [agree _ (entries _ entry)]
          exact mended back follows
  | tooDeep deep => exact .tooDeep ((agree tokens starts).trans deep)

/-- A reader that is content with nothing before what may follow it. -/
theorem Decides.optional (decides : Decides Entry Follows reader tokens) (nothing : α)
    (content : ∀ back, Follows back → reader back = .ok (nothing, back))
    : Decides Follows Follows reader tokens := by
  cases decides with
  | read front value divided goesOn _ =>
      exact .read front value divided goesOn fun _ _ follows => follows
  | unmet front added value divided known refuses inner mended _ =>
      by_cases untaken : front = []
      · subst untaken
        exact .unmet [] [] nothing divided known refuses (by simp) content
          fun _ _ follows => follows
      · exact .unmet front added value divided known refuses inner mended
          fun taken => absurd taken untaken
  | tooDeep deep => exact .tooDeep deep

/-- A reader that takes a token and then does as another one. -/
theorem Decides.after {other : Reader α} {Anything : List Token → Prop} {token : Token}
    (decides : Decides Anything Follows other tokens)
    (takes : ∀ back, reader (token :: back) = other back)
    : Decides Entry Follows reader (token :: tokens) := by
  cases decides with
  | read front value divided goesOn _ =>
      refine .read (token :: front) value (congrArg (token :: ·) divided) (fun back next => ?_)
        (by simp)
      exact (takes _).trans (goesOn back next)
  | unmet front added value divided known refuses inner mended _ =>
      refine .unmet (token :: front) added value (congrArg (token :: ·) divided) known
        (fun back next => ?_) inner (fun back next => ?_) (by simp)
      · exact (takes _).trans (refuses back next)
      · exact (takes _).trans (mended back next)
  | tooDeep deep => exact .tooDeep ((takes _).trans deep)

-- Composed readers

/-- A value given back takes nothing, so it enters what follows it. -/
theorem Decides.pure (value : α) (entries : ∀ back, Follows back → Entry back)
    : Decides Entry Follows (Pure.pure value) tokens :=
  .read [] value rfl (fun _ _ => rfl) fun _ => entries

/-- One reader after the other. The second has to start with what may follow the first, also
where tokens are supplied for both.
-/
theorem Decides.bind {Middle : List Token → Prop} {first : Reader α} {next : α → Reader β}
    (starts : Decides Entry Middle first tokens)
    (continues : ∀ value rest, first tokens = .ok (value, rest) ∨ rest = [] →
      Decides Middle Follows (next value) rest)
    (shallow : ∀ value, next value [] ≠ .error .tooDeep)
    (entries : (∀ back, Middle back → Entry back) ∨ ∀ value, first tokens ≠ .ok (value, tokens))
    : Decides Entry Follows (first >>= next) tokens := by
  cases starts with
  | tooDeep deep => exact .tooDeep (bind_of_error deep)
  -- what was added for the first reader is followed by what completes the second one
  | unmet front added value divided known refuses inner mended enters =>
      obtain ⟨more, last, moreInner, completed⟩ :=
        (continues value [] (Or.inr rfl)).completes (shallow value)
      refine .unmet front (added ++ more) last divided known
        (fun back next => bind_of_error (refuses back next))
        (List.forall_mem_append.mpr ⟨inner, moreInner⟩) (fun back follows => ?_)
        fun nothing back follows => ?_
      · obtain ⟨middle, reads⟩ := completed back follows
        rw [List.append_assoc, bind_of_ok (mended _ middle)]
        exact reads
      · rw [List.append_assoc]
        exact enters nothing _ (completed back follows).1
  | @read front value rest divided goesOn enters =>
      have reads : first tokens = .ok (value, rest) := by
        rw [divided]
        exact goesOn rest (Or.inl rfl)
      -- if neither reader takes a token, the second one stands at the entry of both
      have outer {back : List Token} (nothing : front = []) (middle : Middle back)
          : Entry back := by
        rcases entries with entries | takes
        · exact entries back middle
        · subst nothing
          exact absurd (divided ▸ reads) (takes value)
      cases continues value rest (Or.inl reads) with
      | tooDeep deep => exact .tooDeep ((bind_of_ok reads).trans deep)
      | @read front' value' rest' divided' goesOn' enters' =>
          subst divided' divided
          refine .read (front ++ front') value' (List.append_assoc front front' rest').symm
            (fun back next => ?_) fun nothing back follows => ?_
          · have middle : (front' ++ back).head? = (front' ++ rest').head?
                ∨ Middle (front' ++ back) :=
              head_append_or fun nothing => next.imp_right (enters' nothing back)
            rw [List.append_assoc, bind_of_ok (goesOn _ middle)]
            exact goesOn' back next
          · obtain ⟨nothing, nothing'⟩ := List.append_eq_nil_iff.mp nothing
            exact outer nothing (enters' nothing' back follows)
      | @unmet front' added value' rest' _ divided' known' refuses' inner' mended' enters' =>
          subst divided' divided
          refine .unmet (front ++ front') added value' (List.append_assoc front front' rest').symm
            known' (fun back next => ?_) inner' (fun back follows => ?_)
            fun nothing back follows => ?_
          · have middle : (front' ++ back).head? = (front' ++ rest').head?
                ∨ Middle (front' ++ back) :=
              head_append_or fun _ => Or.inl next
            rw [List.append_assoc, bind_of_ok (goesOn _ middle)]
            exact refuses' back next
          · have middle : (front' ++ (added ++ back)).head? = (front' ++ rest').head?
                ∨ Middle (front' ++ (added ++ back)) :=
              head_append_or fun nothing => Or.inr (enters' nothing back follows)
            rw [List.append_assoc, bind_of_ok (goesOn _ middle)]
            exact mended' back follows
          · obtain ⟨nothing, nothing'⟩ := List.append_eq_nil_iff.mp nothing
            exact outer nothing (enters' nothing' back follows)

/-- Converting the value changes neither what is taken nor where a refusal stands. -/
theorem Decides.map (decides : Decides Entry Follows reader tokens) (convert : α → β)
    : Decides Entry Follows (convert <$> reader) tokens := by
  have mapped {front back : List Token} {value : α} (reads : reader front = .ok (value, back))
      : (convert <$> reader) front = .ok (convert value, back) :=
    map_eq_ok.mpr ⟨value, reads, rfl⟩
  have refused {front : List Token} {refusal : Refusal} (refuses : reader front = .error refusal)
      : (convert <$> reader) front = .error refusal := by
    change (reader front >>= fun pair => Pure.pure (convert pair.1, pair.2)) = _
    rw [refuses]
    rfl
  cases decides with
  | read front value divided goesOn enters =>
      exact .read front (convert value) divided (fun back next => mapped (goesOn back next)) enters
  | unmet front added value divided known refuses inner mended enters =>
      exact .unmet front added (convert value) divided known
        (fun back next => refused (refuses back next)) inner
        (fun back follows => mapped (mended back follows)) enters
  | tooDeep deep => exact .tooDeep (refused deep)

/-- The next token, and nothing after it, decides whether a token can be taken. -/
theorem Decides.take {kind : TokenKind} (inner : kind ≠ .endOfText) {expected : Expectation}
    (known : expected ≠ .operator) (tokens : List Token)
    : Decides (startsWith kind · = true) (fun _ => True) (take kind expected) tokens := by
  have supplied (back : List Token)
      : Reader.take kind expected ([Token.ofKind kind] ++ back)
        = .ok (Token.ofKind kind, back) :=
    take_eq_ok.mpr ⟨rfl, rfl⟩
  have starts (back : List Token) : startsWith kind ([Token.ofKind kind] ++ back) = true := by
    simp [startsWith, Token.ofKind]
  have refused (refuses : ∀ back : List Token, back.head? = tokens.head? →
        Reader.take kind expected back = .error (.unmet expected back))
      : Decides (startsWith kind · = true) (fun _ => True) (Reader.take kind expected) tokens :=
    .unmet [] [Token.ofKind kind] (Token.ofKind kind) rfl known refuses
      (by simpa [Token.ofKind] using inner) (fun back _ => supplied back)
      fun _ back _ => starts back
  cases tokens with
  | nil =>
      refine refused fun back next => ?_
      obtain rfl := List.head?_eq_none_iff.mp next
      rfl
  | cons token rest =>
      by_cases isKind : token.kind = kind
      · refine .read [token] token rfl (fun back _ => ?_) (by simp)
        exact take_eq_ok.mpr ⟨rfl, isKind⟩
      · refine refused fun back next => ?_
        obtain ⟨tail, rfl⟩ := List.head?_eq_some_iff.mp next
        simp [Reader.take, isKind]

/-- A token is taken before another reader. -/
theorem Decides.take_bind {kind : TokenKind} (inner : kind ≠ .endOfText) {expected : Expectation}
    (known : expected ≠ .operator) {next : Token → Reader β} (tokens : List Token)
    (continues : ∀ token rest, Decides (fun _ => True) Follows (next token) rest)
    (shallow : ∀ token, next token [] ≠ .error .tooDeep)
    : Decides (startsWith kind · = true) Follows (Reader.take kind expected >>= next) tokens := by
  have first := Decides.take inner known tokens
  exact first.bind (fun token rest _ => continues token rest) shallow
    (Or.inr (first.takes trivial nofun))

/-- Something that is closed by a token. What follows the token does not matter. -/
theorem Decides.closed (kind : TokenKind) (inner : kind ≠ .endOfText) (expected : Expectation)
    (known : expected ≠ .operator) (finish : α → Token → β)
    (starts : Decides Entry (startsWith kind · = true) reader tokens)
    (entries : (∀ back, startsWith kind back = true → Entry back)
      ∨ ∀ value, reader tokens ≠ .ok (value, tokens))
    : Decides Entry (fun _ => True)
        (do let value ← reader; let token ← Reader.take kind expected; return finish value token)
        tokens := by
  refine starts.bind (fun value rest _ => ?_) (fun value => nofun) entries
  exact Decides.take_bind inner known rest
    (fun token _ => .pure (finish value token) fun _ _ => trivial) fun token => nofun

-- Loops

section Loops

variable {condition : List Token → Bool} {step : α → Reader α} {Middle : List Token → Prop}

/-- A loop that is bounded by the tokens which it starts from. -/
def loop (condition : List Token → Bool) (step : α → Reader α) (state : α) : Reader α :=
  fun tokens => repeatWhile condition step tokens state tokens

/-- If every step takes a token, it does not matter what bounds the loop. -/
theorem repeatWhile_eq (atEnd : condition [] = false)
    (shorter : ∀ state tokens value rest, condition tokens = true →
      step state tokens = .ok (value, rest) → rest.length < tokens.length)
    {bound bound' : List Token} (enough : tokens.length ≤ bound.length)
    (enough' : tokens.length ≤ bound'.length) (state : α)
    : repeatWhile condition step bound state tokens
      = repeatWhile condition step bound' state tokens := by
  induction bound generalizing bound' state tokens with
  | nil =>
      obtain rfl : tokens = [] := List.length_eq_zero_iff.mp (Nat.le_zero.mp enough)
      rw [repeatWhile_of_false _ _ atEnd, repeatWhile_of_false _ _ atEnd]
  | cons _ bound ih =>
      by_cases continues : condition tokens = true
      · cases bound' with
        | nil =>
            obtain rfl : tokens = [] := List.length_eq_zero_iff.mp (Nat.le_zero.mp enough')
            exact absurd continues (by simp [atEnd])
        | cons _ bound' =>
            rw [repeatWhile_of_true continues, repeatWhile_of_true continues]
            cases stepped : step state tokens with
            | error => rw [bind_of_error stepped, bind_of_error stepped]
            | ok pair =>
                obtain ⟨value, rest⟩ := pair
                have less := shorter state tokens value rest continues stepped
                simp only [List.length_cons] at enough enough'
                rw [bind_of_ok stepped, bind_of_ok stepped]
                exact ih (by omega) (by omega) value
      · have stopped : condition tokens = false := by simpa using continues
        rw [repeatWhile_of_false _ _ stopped, repeatWhile_of_false _ _ stopped]

/-- A loop ends at once where its condition fails. -/
theorem loop_of_false (state : α) (stopped : condition tokens = false)
    : loop condition step state tokens = .ok (state, tokens) :=
  repeatWhile_of_false tokens state stopped

/-- A loop goes on with itself after a step. -/
theorem loop_of_true (atEnd : condition [] = false)
    (shorter : ∀ state tokens value rest, condition tokens = true →
      step state tokens = .ok (value, rest) → rest.length < tokens.length)
    (state : α) (continues : condition tokens = true)
    : loop condition step state tokens = (step state >>= loop condition step) tokens := by
  cases tokens with
  | nil => exact absurd continues (by simp [atEnd])
  | cons token bound =>
      rw [loop, repeatWhile_of_true continues]
      cases stepped : step state (token :: bound) with
      | error => rw [bind_of_error stepped, bind_of_error stepped]
      | ok pair =>
          obtain ⟨value, rest⟩ := pair
          have less := shorter state _ value rest continues stepped
          rw [bind_of_ok stepped, bind_of_ok stepped]
          exact repeatWhile_eq atEnd shorter (Nat.le_of_lt_succ less) (Nat.le_refl _) value

/-- A loop decides as its steps do. It may be followed by what stops it and may follow a step. -/
theorem Decides.loop (looks : LooksAhead condition) (atEnd : condition [] = false)
    (stops : ∀ back, Follows back → condition back = false)
    (steps : ∀ state tokens, condition tokens = true →
      Decides (condition · = true) Middle (step state) tokens)
    (ends : Middle []) (follows : ∀ back, Follows back → Middle back) (state : α)
    (tokens : List Token)
    : Decides Follows Follows (loop condition step state) tokens := by
  have shorter (state : α) (tokens : List Token) (value : α) (rest : List Token)
      (continues : condition tokens = true) (stepped : step state tokens = .ok (value, rest))
      : rest.length < tokens.length :=
    (steps state tokens continues).shorter ends (by simp [atEnd]) stepped
  induction size : tokens.length using Nat.strongRecOn generalizing state tokens with
  | _ size ih =>
      by_cases continues : condition tokens = true
      · have decided : Decides (condition · = true) Follows
            (step state >>= Reader.loop condition step) tokens := by
          refine ((steps state tokens continues).mono (fun _ entry => entry) follows).bind
            (fun value rest left => ih _ ?_ value rest rfl) (fun value => nofun)
            (Or.inr ((steps state tokens continues).takes ends (by simp [atEnd])))
          rcases left with stepped | rfl
          · exact size ▸ shorter state tokens value rest continues stepped
          · refine size ▸ List.length_pos_iff.mpr fun nothing => ?_
            simp [nothing, atEnd] at continues
        exact (decided.congr looks (fun back => loop_of_true atEnd shorter state)
          (fun _ entry => entry) continues).optional state
          fun back next => loop_of_false state (stops back next)
      · have stopped : condition tokens = false := by simpa using continues
        refine .read [] state rfl (fun back next => loop_of_false state ?_) fun _ _ next => next
        rcases next with same | next
        · exact (looks _ _ same).trans stopped
        · exact stops back next

end Loops

-- Items

section Items

variable {condition : List Token → Bool} {item : Reader α} {Middle : List Token → Prop}

/-- Reading items is a loop that gathers them in reverse. -/
theorem many_eq_loop (condition : List Token → Bool) (item : Reader α)
    : many condition item
      = List.reverse <$> loop condition (fun found => (· :: found) <$> item) [] :=
  rfl

/-- Items decide as the loop that gathers them does. -/
theorem Decides.many (looks : LooksAhead condition) (atEnd : condition [] = false)
    (stops : ∀ back, Follows back → condition back = false)
    (items : ∀ tokens, condition tokens = true → Decides (condition · = true) Middle item tokens)
    (ends : Middle []) (follows : ∀ back, Follows back → Middle back) (tokens : List Token)
    : Decides Follows Follows (many condition item) tokens := by
  rw [many_eq_loop]
  refine Decides.map (Decides.loop looks atEnd stops (fun found tokens continues => ?_) ends follows
    [] tokens) List.reverse
  exact (items tokens continues).map (· :: found)

/-- Items with commas between them are followed by the closing token. -/
theorem Decides.separated (close : TokenKind) (isOther : close ≠ .comma)
    (items : ∀ tokens, Decides Entry Middle item tokens) (ends : Middle []) (starts : ¬ Entry [])
    (follows : ∀ back, startsWith close back = true → Middle back)
    (entries : ∀ back, Entry back → startsWith close back = false) (tokens : List Token)
    : Decides (startsWith close · = true) (startsWith close · = true) (separated close item)
        tokens := by
  have stops (back : List Token) (closes : startsWith close back = true)
      : startsWith .comma back = false :=
    startsWith_of_ne isOther closes
  have others (tokens : List Token)
      : Decides (startsWith close · = true) (startsWith close · = true)
          (Reader.many (startsWith .comma) (takeIf .comma >>= fun _ => item)) tokens := by
    refine Decides.many (startsWith_looksAhead .comma) rfl stops (fun tokens continues => ?_) ends
      follows tokens
    cases tokens with
    | nil => exact absurd continues Bool.false_ne_true
    | cons comma tokens =>
        refine (items tokens).after fun back => ?_
        exact takeIf_comma_bind item ⟨comma, by simpa using continues⟩ back
  by_cases closes : startsWith close tokens = true
  · refine .read [] [] rfl (fun back next => ?_) fun _ _ next => next
    have closes : startsWith close back = true :=
      next.elim (fun same => (startsWith_looksAhead close _ _ same).trans closes) id
    simp [Reader.separated, closes]
  · let row : Reader (List α) := item >>= fun first =>
      (first :: ·) <$> Reader.many (startsWith .comma) (takeIf .comma >>= fun _ => item)
    have decided : Decides Entry (startsWith close · = true) row tokens := by
      refine ((items tokens).mono (fun _ entry => entry) follows).bind
        (fun first rest _ => (others rest).map (first :: ·)) (fun first deep => ?_)
        (Or.inr ((items tokens).takes ends starts))
      injection deep
    refine (decided.congr (startsWith_looksAhead close).not (fun back opens => ?_)
      (fun back entry => ?_) ?_).optional [] fun back closes => ?_
    · have opens : startsWith close back = false := by simpa using opens
      simp only [Reader.separated, opens, Bool.false_eq_true, if_false]
      rfl
    · simp [entries back entry]
    · simpa using closes
    · simp [Reader.separated, closes]

end Items

end Reader

end Sprig
