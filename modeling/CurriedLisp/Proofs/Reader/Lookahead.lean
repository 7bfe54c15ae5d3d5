import CurriedLisp.Reader.Form

set_option autoImplicit false

/-!
Looking ahead. A stream may be read through a buffer for the next token: to peek at a token is to move it into the
buffer, and a form is read by descent into its parts, each of which looks at its first token before it takes it. This
is reading the stream: the buffer shows in no answer, and no token is lost or taken twice.
-/

namespace CurriedLisp.Reader

def proceed (depth : Nat) (s : Stream) : Progress → Except Failure (Option Value) × Stream
  | .complete form => (.ok (some form), s)
  | .partway frames => readFrom depth s.fault frames s.tokens

theorem readFrom_ok {depth : Nat} {fault : Option Error} {frames : List Frame} {token : Token} {rest : List Token}
    {progress : Progress} (fed : feed depth frames token = .ok progress) :
    readFrom depth fault frames (token :: rest) = proceed depth ⟨rest, fault⟩ progress := by
  rw [readFrom, fed]
  cases progress <;> rfl

theorem readFrom_error {depth : Nat} {fault : Option Error} {frames : List Frame} {token : Token} {rest : List Token}
    {e : Failure} (fed : feed depth frames token = .error e) :
    readFrom depth fault frames (token :: rest) = (.error e, ⟨unread e token rest, fault⟩) := by
  rw [readFrom, fed]

structure Lookahead where
  -- The tokens that were taken, latest first.
  taken : List Token
  buffer : List Token
  source : Stream

abbrev Descent (α : Type) := EStateM Failure Lookahead α

namespace Lookahead

variable {α β : Type}

def rest (l : Lookahead) : Stream := ⟨l.buffer ++ l.source.tokens, l.source.fault⟩

def peek : Descent (Option Token) := fun l =>
  match l.buffer with
  | token :: _ => .ok (some token) l
  | [] =>
      match l.source.advance with
      | (.ok (some token), source) => .ok (some token) { l with buffer := [token], source := source }
      | (.ok none, source) => .ok none { l with source := source }
      | (.error e, source) => .error e { l with source := source }

def advance : Descent (Option Token) := fun l =>
  match l.buffer with
  | token :: buffer => .ok (some token) { l with taken := token :: l.taken, buffer := buffer }
  | [] =>
      match l.source.advance with
      | (.ok (some token), source) => .ok (some token) { l with taken := token :: l.taken, source := source }
      | (.ok none, source) => .ok none { l with source := source }
      | (.error e, source) => .error e { l with source := source }

def left : Descent Nat := fun l => .ok l.rest.tokens.length l

-- The items of a list up to the parenthesis that closes it, no more than there are tokens left.
def items (item : Token → Descent Value) : Nat → List Value → Descent Value
  | 0, _ => throw .tooDeep
  | bound + 1, done => do
      match ← peek with
      | none => throw (.error .unmatchedOpen)
      | some .closing => do
          let _ ← advance
          return .ofList done.reverse
      | some token => do
          let _ ← advance
          let form ← item token
          items item bound (form :: done)

def formAfter : Nat → Token → Descent Value
  | _, .word text =>
      match atom text with
      | .ok v => return v
      | .error e => throw (.numeral e)
  | _, .closing => throw (.error .unexpectedClose)
  | 0, _ => throw .tooDeep
  | depth + 1, .quote => do
      match ← peek with
      | none => throw (.error .nothingToQuote)
      | some .closing => throw (.error .closeAfterQuote)
      | some token => do
          let _ ← advance
          let form ← formAfter depth token
          return form.quoted
  | depth + 1, .opening => do
      let bound ← left
      items (formAfter depth) (bound + 1) []

def form (depth : Nat) : Descent (Option Value) := do
  match ← peek with
  | none => return none
  | some token => do
      let _ ← advance
      let form ← formAfter depth token
      return some form

theorem formAfter_word (depth : Nat) (text : String) :
    formAfter depth (.word text) =
      match atom text with
      | .ok v => pure v
      | .error e => throw (.numeral e) := by
  cases depth <;> rfl

theorem formAfter_closing (depth : Nat) : formAfter depth .closing = throw (.error .unexpectedClose) := by
  cases depth <;> rfl

def answer : EStateM.Result Failure Lookahead α → Except Failure α × Stream
  | .ok a l => (.ok a, l.rest)
  | .error e l => (.error e, l.rest)

theorem answer_ok {r : EStateM.Result Failure Lookahead α} {a : α} {s : Stream} (answered : answer r = (.ok a, s)) :
    ∃ l, r = .ok a l ∧ l.rest = s := by
  cases r with
  | ok b l =>
      obtain ⟨same, left⟩ := Prod.mk.inj answered
      exact ⟨l, by rw [Except.ok.inj same], left⟩
  | error e l => cases answered

theorem answer_error {r : EStateM.Result Failure Lookahead α} {e : Failure} {s : Stream}
    (answered : answer r = (.error e, s)) : ∃ l, r = .error e l ∧ l.rest = s := by
  cases r with
  | ok b l => cases answered
  | error f l =>
      obtain ⟨same, left⟩ := Prod.mk.inj answered
      exact ⟨l, by rw [Except.error.inj same], left⟩

theorem bind_ok {x : Descent α} {f : α → Descent β} {l l' : Lookahead} {a : α} (ran : x l = .ok a l') :
    (x >>= f) l = f a l' := by
  simp only [bind, EStateM.bind, ran]

theorem bind_error {x : Descent α} {f : α → Descent β} {l l' : Lookahead} {e : Failure} (ran : x l = .error e l') :
    (x >>= f) l = .error e l' := by
  simp only [bind, EStateM.bind, ran]

theorem peek_answer (l : Lookahead) : answer (peek l) = l.rest.peek := by
  obtain ⟨taken, buffer, tokens, fault⟩ := l
  cases buffer with
  | cons token more => rfl
  | nil =>
      cases tokens with
      | cons token rest => rfl
      | nil => cases fault <;> rfl

theorem advance_answer (l : Lookahead) : answer (advance l) = l.rest.advance := by
  obtain ⟨taken, buffer, tokens, fault⟩ := l
  cases buffer with
  | cons token more => rfl
  | nil =>
      cases tokens with
      | cons token rest => rfl
      | nil => cases fault <;> rfl

structure Shows (l : Lookahead) (token : Token) (tokens : List Token) (seen next : Lookahead) : Prop where
  left : l.rest = ⟨token :: tokens, l.rest.fault⟩
  peeked : peek l = .ok (some token) seen
  same : seen.rest = l.rest
  advanced : advance seen = .ok (some token) next
  remains : next.rest = ⟨tokens, l.rest.fault⟩

theorem peek_cases (l : Lookahead) :
    (∃ seen, l.rest = ⟨[], none⟩ ∧ peek l = .ok none seen ∧ seen.rest = ⟨[], none⟩) ∨
      (∃ e seen, l.rest = ⟨[], some e⟩ ∧ peek l = .error (.error e) seen ∧ seen.rest = ⟨[], none⟩) ∨
      ∃ token tokens seen next, l.Shows token tokens seen next := by
  have answers := peek_answer l
  cases left : l.rest with
  | mk tokens fault =>
      rw [left] at answers
      cases tokens with
      | nil =>
          cases fault with
          | none =>
              obtain ⟨seen, peeked, same⟩ := answer_ok answers
              exact .inl ⟨seen, rfl, peeked, same⟩
          | some e =>
              obtain ⟨seen, peeked, same⟩ := answer_error answers
              exact .inr (.inl ⟨e, seen, rfl, peeked, same⟩)
      | cons token tokens =>
          obtain ⟨seen, peeked, same⟩ := answer_ok answers
          have advances := advance_answer seen
          rw [same] at advances
          obtain ⟨next, advanced, remains⟩ := answer_ok advances
          refine .inr (.inr ⟨token, tokens, seen, next, ?_⟩)
          exact ⟨by rw [left], peeked, same.trans left.symm, advanced, by rw [left, remains]⟩

-- What taking tokens does: those that are taken and those that are left stay the same list, no more than one of them
-- waits, and what the source would fail with it fails with once at most.
structure Onward (l l' : Lookahead) : Prop where
  whole : l'.taken.reverse ++ l'.rest.tokens = l.taken.reverse ++ l.rest.tokens
  taken : l.taken <:+ l'.taken
  buffer : l.buffer.length ≤ 1 → l'.buffer.length ≤ 1
  fault : l'.rest.fault = l.rest.fault ∨ l'.rest.fault = none

theorem onward_refl (l : Lookahead) : l.Onward l := ⟨rfl, List.suffix_rfl, id, .inl rfl⟩

theorem Onward.trans {l l' l'' : Lookahead} (first : l.Onward l') (second : l'.Onward l'') : l.Onward l'' where
  whole := second.whole.trans first.whole
  taken := first.taken.trans second.taken
  buffer := second.buffer ∘ first.buffer
  fault := second.fault.elim (fun same => same ▸ first.fault) .inr

theorem Onward.length {l l' : Lookahead} (onward : l.Onward l') : l'.rest.tokens.length ≤ l.rest.tokens.length := by
  have whole := congrArg List.length onward.whole
  have taken := onward.taken.length_le
  simp only [List.length_append, List.length_reverse] at whole
  omega

theorem Onward.spent {l l' : Lookahead} (onward : l.Onward l') {spent : List Token}
    (shape : l.rest.tokens = spent ++ l'.rest.tokens) : l'.taken = spent.reverse ++ l.taken := by
  have whole := onward.whole
  rw [shape, ← List.append_assoc] at whole
  have taken := congrArg List.reverse (List.append_cancel_right whole)
  rwa [List.reverse_reverse, List.reverse_append, List.reverse_reverse] at taken

def after (x : Descent α) (l : Lookahead) : Lookahead :=
  match x l with
  | .ok _ l => l
  | .error _ l => l

def Conserves (x : Descent α) : Prop := ∀ l : Lookahead, l.Onward (after x l)

theorem conserves_pure (a : α) : Conserves (pure a) := onward_refl

theorem conserves_throw (e : Failure) : Conserves (throw e : Descent α) := onward_refl

theorem conserves_bind {x : Descent α} {f : α → Descent β} (first : Conserves x) (later : ∀ a, Conserves (f a)) :
    Conserves (x >>= f) := by
  intro l
  have start := first l
  rw [after] at start ⊢
  cases ran : x l with
  | ok a l' =>
      rw [ran] at start
      rw [bind_ok ran]
      exact start.trans (later a l')
  | error e l' =>
      rw [ran] at start
      rw [bind_error ran]
      exact start

theorem conserves_peek : Conserves peek := by
  rintro ⟨taken, buffer, tokens, fault⟩
  cases buffer with
  | cons token more => exact onward_refl _
  | nil =>
      cases tokens with
      | cons token rest => exact ⟨rfl, List.suffix_rfl, fun _ => Nat.le_refl 1, .inl rfl⟩
      | nil =>
          cases fault with
          | none => exact onward_refl _
          | some e => exact ⟨rfl, List.suffix_rfl, id, .inr rfl⟩

theorem conserves_advance : Conserves advance := by
  rintro ⟨taken, buffer, tokens, fault⟩
  have moved (token : Token) (rest : List Token) :
      (token :: taken).reverse ++ rest = taken.reverse ++ token :: rest := by
    rw [List.reverse_cons, List.append_assoc, List.singleton_append]
  cases buffer with
  | cons token more =>
      exact ⟨moved token (more ++ tokens), List.suffix_cons token taken, Nat.le_of_succ_le, .inl rfl⟩
  | nil =>
      cases tokens with
      | cons token rest => exact ⟨moved token rest, List.suffix_cons token taken, id, .inl rfl⟩
      | nil =>
          cases fault with
          | none => exact onward_refl _
          | some e => exact ⟨rfl, List.suffix_rfl, id, .inr rfl⟩

theorem conserves_items {item : Token → Descent Value} (each : ∀ token, Conserves (item token)) (bound : Nat)
    (done : List Value) : Conserves (items item bound done) := by
  induction bound generalizing done with
  | zero => exact conserves_throw _
  | succ bound ih =>
      refine conserves_bind conserves_peek fun seen => ?_
      have goesOn (token : Token) : Conserves (do
          let _ ← advance
          let form ← item token
          items item bound (form :: done)) :=
        conserves_bind conserves_advance fun _ => conserves_bind (each token) fun form => ih (form :: done)
      cases seen with
      | none => exact conserves_throw _
      | some token =>
          cases token with
          | closing => exact conserves_bind conserves_advance fun _ => conserves_pure _
          | _ => exact goesOn _

theorem conserves_formAfter (depth : Nat) (token : Token) : Conserves (formAfter depth token) := by
  have word (depth : Nat) (text : String) : Conserves (formAfter depth (.word text)) := by
    rw [formAfter_word]
    cases atom text with
    | ok v => exact conserves_pure v
    | error e => exact conserves_throw _
  induction depth generalizing token with
  | zero =>
      cases token with
      | word text => exact word 0 text
      | _ => exact conserves_throw _
  | succ depth ih =>
      cases token with
      | word text => exact word (depth + 1) text
      | closing => exact conserves_throw _
      | opening => exact conserves_bind onward_refl fun bound => conserves_items ih (bound + 1) []
      | quote =>
          refine conserves_bind conserves_peek fun seen => ?_
          have goesOn (token : Token) : Conserves (do
              let _ ← advance
              let form ← formAfter depth token
              return form.quoted) :=
            conserves_bind conserves_advance fun _ => conserves_bind (ih token) fun form => conserves_pure _
          cases seen with
          | none => exact conserves_throw _
          | some token =>
              cases token with
              | closing => exact conserves_throw _
              | _ => exact goesOn _

def await (depth : Nat) (frames : List Frame) : EStateM.Result Failure Lookahead Value →
    Except Failure (Option Value) × Stream
  | .ok v l => proceed depth l.rest (plug v frames)
  | .error e l => (.error e, l.rest)

theorem await_bind {depth : Nat} {frames outer : List Frame} {x : Descent Value} {f : Value → Descent Value}
    {l : Lookahead} (ended : ∀ v l', x l = .ok v l' → proceed depth l'.rest (plug v frames) = await depth outer (f v l')) :
    await depth frames (x l) = await depth outer ((x >>= f) l) := by
  cases ran : x l with
  | ok v l' =>
      rw [bind_ok ran]
      exact ended v l' ran
  | error e l' =>
      rw [bind_error ran]
      rfl

theorem items_token {item : Token → Descent Value} {bound : Nat} {done : List Value} {l seen next : Lookahead}
    {token : Token} (other : token ≠ .closing) (peeked : peek l = .ok (some token) seen)
    (advanced : advance seen = .ok (some token) next) :
    items item (bound + 1) done l = (item token >>= fun form => items item bound (form :: done)) next := by
  rw [items, bind_ok peeked]
  cases token with
  | closing => exact absurd rfl other
  | _ => exact bind_ok advanced

theorem quote_token {depth : Nat} {l seen next : Lookahead} {token : Token} (other : token ≠ .closing)
    (peeked : peek l = .ok (some token) seen) (advanced : advance seen = .ok (some token) next) :
    formAfter (depth + 1) .quote l = (formAfter depth token >>= fun form => pure form.quoted) next := by
  rw [formAfter, bind_ok peeked]
  cases token with
  | closing => exact absurd rfl other
  | _ => exact bind_ok advanced

-- Reading the form that begins with a token, where `depth` of `total` may still be open.
def Descends (total depth : Nat) : Prop :=
  ∀ (frames : List Frame) (token : Token) (l : Lookahead), frames.length + depth = total →
    (token = .closing → frames = []) →
      readFrom total l.rest.fault frames (token :: l.rest.tokens) = await total frames (formAfter depth token l)

-- Reading the items of a list, by induction on how many may be left.
theorem items_answer {total depth : Nat} (descends : Descends total depth) (bound : Nat) (done : List Value)
    (frames : List Frame) (l : Lookahead) (opened : (Frame.list done :: frames).length + depth = total)
    (enough : l.rest.tokens.length < bound) :
    readFrom total l.rest.fault (.list done :: frames) l.rest.tokens =
      await total frames (items (formAfter depth) bound done l) := by
  induction bound generalizing done l with
  | zero => exact absurd enough (Nat.not_lt_zero _)
  | succ bound ih =>
      obtain ⟨seen, left, peeked, same⟩ | ⟨e, seen, left, peeked, same⟩ | ⟨token, tokens, seen, next, shows⟩ :=
        peek_cases l
      · rw [left, items, bind_ok peeked]
        exact Prod.ext rfl same.symm
      · rw [left, items, bind_error peeked]
        exact Prod.ext rfl same.symm
      · rw [shows.left] at enough ⊢
        by_cases closes : token = .closing
        · subst closes
          have fed : feed total (.list done :: frames) .closing = .ok (plug (.ofList done.reverse) frames) := rfl
          rw [readFrom_ok fed, items, bind_ok shows.peeked]
          change _ = await total frames ((advance >>= fun _ => pure (.ofList done.reverse)) seen)
          rw [bind_ok shows.advanced, ← shows.remains]
          rfl
        · have first := descends (.list done :: frames) token next opened fun isClosing => absurd isClosing closes
          rw [shows.remains] at first
          rw [items_token closes shows.peeked shows.advanced]
          refine first.trans (await_bind fun v l' ran => ?_)
          have onward := conserves_formAfter depth token next
          rw [after, ran] at onward
          have fewer := onward.length
          rw [shows.remains] at fewer
          exact ih (v :: done) l' opened (Nat.lt_of_le_of_lt fewer (Nat.lt_of_succ_lt_succ enough))

theorem descends_word {total depth : Nat} (frames : List Frame) (text : String) (l : Lookahead) :
    readFrom total l.rest.fault frames (.word text :: l.rest.tokens) =
      await total frames (formAfter depth (.word text) l) := by
  rw [formAfter_word]
  cases read : atom text with
  | ok v =>
      have fed : feed total frames (.word text) = .ok (plug v frames) := by rw [feed, read]
      exact readFrom_ok fed
  | error e =>
      have fed : feed total frames (.word text) = .error (.numeral e) := by rw [feed, read]
      exact readFrom_error fed

theorem descends_closing {total depth : Nat} (l : Lookahead) :
    readFrom total l.rest.fault [] (.closing :: l.rest.tokens) = await total [] (formAfter depth .closing l) := by
  rw [formAfter_closing]
  rfl

theorem push_deep {depth : Nat} {frame : Frame} {frames : List Frame} (full : frames.length = depth) :
    push depth frame frames = .error .tooDeep := if_neg (Nat.not_lt_of_le (Nat.le_of_eq full.symm))

theorem quote_answer {total depth : Nat} (descends : Descends total depth) (frames : List Frame) (l : Lookahead)
    (opened : (Frame.quote :: frames).length + depth = total) :
    readFrom total l.rest.fault (.quote :: frames) l.rest.tokens =
      await total frames (formAfter (depth + 1) .quote l) := by
  obtain ⟨seen, left, peeked, same⟩ | ⟨e, seen, left, peeked, same⟩ | ⟨token, tokens, seen, next, shows⟩ := peek_cases l
  · rw [left, formAfter, bind_ok peeked]
    exact Prod.ext rfl same.symm
  · rw [left, formAfter, bind_error peeked]
    exact Prod.ext rfl same.symm
  · rw [shows.left]
    by_cases closes : token = .closing
    · subst closes
      have fed : feed total (.quote :: frames) .closing = .error (.error .closeAfterQuote) := rfl
      rw [readFrom_error fed, formAfter, bind_ok shows.peeked]
      exact Prod.ext rfl (shows.same.trans shows.left).symm
    · have first := descends (.quote :: frames) token next opened fun isClosing => absurd isClosing closes
      rw [shows.remains] at first
      rw [quote_token closes shows.peeked shows.advanced]
      exact first.trans (await_bind fun v l' _ => rfl)

theorem descends (total depth : Nat) : Descends total depth := by
  induction depth with
  | zero =>
      intro frames token l full closes
      cases token with
      | word text => exact descends_word frames text l
      | closing =>
          obtain rfl := closes rfl
          exact descends_closing l
      | opening => exact readFrom_error (push_deep full)
      | quote => exact readFrom_error (push_deep full)
  | succ depth ih =>
      intro frames token l room closes
      have fits (frame : Frame) : push total frame frames = .ok (.partway (frame :: frames)) := if_pos (by omega)
      have inner (frame : Frame) : (frame :: frames).length + depth = total := by
        rw [List.length_cons]
        omega
      cases token with
      | word text => exact descends_word frames text l
      | closing =>
          obtain rfl := closes rfl
          exact descends_closing l
      | opening =>
          have fed : feed total frames .opening = .ok (.partway (.list [] :: frames)) := fits (.list [])
          rw [readFrom_ok fed]
          exact items_answer ih _ [] frames l (inner (.list [])) (Nat.lt_succ_self _)
      | quote =>
          have fed : feed total frames .quote = .ok (.partway (.quote :: frames)) := fits .quote
          rw [readFrom_ok fed]
          exact quote_answer ih frames l (inner .quote)

end Lookahead

end CurriedLisp.Reader
