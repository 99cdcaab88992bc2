import SymbolRecovery.Proofs.Overrun

/-!
Progress under any appliers. Whatever is asked of a cursor, and whatever the applier does that a
record is given to, the cursor comes to stand where it was or further on, and never past the end.
Main statement: so it is for every sequence of operations and of steps, each with appliers of its
own; an operation that is refused changes nothing, a step that succeeds moves on and is counted
once; and the loop of a run comes to an end after no more rounds than there are records left.
-/
namespace SymbolRecovery

namespace Cursor

def Within (c : Cursor) : Prop := c.position ≤ c.records.length

structure Forwards (c d : Cursor) : Prop extends c.Precedes d where
  within : c.Within → d.Within

variable {c d e : Cursor} {target : Int}

theorem Forwards.refl (c : Cursor) : c.Forwards c := ⟨.refl c, id⟩

theorem Forwards.trans (first : c.Forwards d) (second : d.Forwards e) : c.Forwards e :=
  ⟨first.toPrecedes.trans second.toPrecedes, second.within ∘ first.within⟩

theorem forwards_advance (c : Cursor) : c.Forwards c.advance := by
  refine ⟨precedes_advance c, fun within => ?_⟩
  unfold advance
  split
  · next inside => exact inside
  · exact within

theorem forwards_jump (jumped : c.jump target = .ok d) : c.Forwards d := by
  refine ⟨precedes_jump jumped, fun _ => ?_⟩
  unfold jump at jumped
  split at jumped
  · cases jumped
  · split at jumped
    · cases jumped
    · cases jumped
      simp only [Within]
      omega

theorem forwards_readAhead (count : Nat) (c : Cursor) : c.Forwards (c.readAhead count).2 := by
  refine ⟨precedes_readAhead count c, ?_⟩
  induction count generalizing c with
  | zero => exact id
  | succ count ih =>
    unfold readAhead next peek
    cases c.peek? with
    | none => exact id
    | some r => exact ih c.advance ∘ c.forwards_advance.within

end Cursor

theorem Applier.forwards_apply (a : Applier) (c : Context) (cursor : Cursor) (r : Record) :
    cursor.Forwards (a.apply c cursor r).cursor := by
  rcases a.cursor_apply c cursor r with ⟨count, reads⟩ | ⟨target, jumps⟩
  · rw [reads]
    exact cursor.forwards_readAhead count
  · exact cursor.forwards_advance.trans (Cursor.forwards_jump jumps)

namespace Progress
variable {lookup : Lookup} {p q : Progress}

theorem cursor_settle (p : Progress) (a : Applier) (r : Record) (work : Applied)
    (cause : Option FaultCause) :
    (p.settle a r work cause).progress.cursor =
      if work.cursor.position = p.cursor.position then work.cursor.advance else work.cursor := by
  unfold settle
  dsimp only
  split <;> rfl

theorem forwards_dispatch (lookup : Lookup) (p : Progress) :
    p.cursor.Forwards (p.dispatch lookup).progress.cursor := by
  cases found : p.cursor.peek? with
  | none =>
    rw [dispatch_exhausted found]
    exact .refl p.cursor
  | some r =>
    cases applier : lookup r.kind with
    | none =>
      simp only [dispatch, found, applier]
      exact p.cursor.forwards_advance
    | some a =>
      have ahead := a.forwards_apply p.context p.cursor r
      have settled : ∀ cause, p.cursor.Forwards
          (p.settle a r (a.apply p.context p.cursor r) cause).progress.cursor := by
        intro cause
        rw [cursor_settle]
        split
        · exact ahead.trans (Cursor.forwards_advance _)
        · exact ahead
      cases ends : (a.apply p.context p.cursor r).ending with
      | failure failure => simpa only [dispatch, found, applier, ends] using ahead
      | done => simpa only [dispatch, found, applier, ends] using settled none
      | fault cause => simpa only [dispatch, found, applier, ends] using settled (some cause)

theorem dispatch_counts (lookup : Lookup) (p : Progress) :
    let step := p.dispatch lookup
    step.failure = none ∧ p.tally.CountsOne step.progress.tally ∨
      ∃ failure, step.failure = some failure ∧ step.progress.tally = p.tally ∧
        (p.cursor.peek? = none ∨ ∃ r a, p.cursor.peek? = some r ∧ lookup r.kind = some a ∧
          (a.apply p.context p.cursor r).ending = .failure failure) := by
  cases found : p.cursor.peek? with
  | none =>
    rw [dispatch_exhausted found]
    exact .inr ⟨_, rfl, rfl, .inl rfl⟩
  | some r =>
    rcases dispatch_cases lookup found with counted | ⟨a, failure, applier, ends⟩
    · exact .inl counted
    · obtain ⟨fails, same, -⟩ := dispatch_of_failure found applier ends
      exact .inr ⟨failure, fails, same, .inr ⟨r, a, rfl, applier, ends⟩⟩

theorem position_lt_of_succeeds (succeeds : (p.dispatch lookup).failure = none) :
    p.cursor.position < (p.dispatch lookup).progress.cursor.position := by
  have fewer := dispatch_remaining_lt succeeds
  have same := (forwards_dispatch lookup p).records_eq
  unfold Cursor.remaining at fewer
  rw [same] at fewer
  omega

end Progress

inductive CursorMove where
  | next
  | peek
  | jump (target : Int)
  | jumpToOffset (offset : Int)
deriving Repr, DecidableEq

namespace Cursor
variable {c : Cursor} {m : CursorMove} {j : Nat}

def move (c : Cursor) : CursorMove → Except CursorError Cursor
  | .next => c.next.map (·.2)
  | .peek => c.peek.map fun _ => c
  | .jump target => c.jump target
  | .jumpToOffset offset => c.jumpToOffset offset

def moved? (c : Cursor) : CursorMove → Option Nat
  | .next => if c.position < c.records.length then some (c.position + 1) else none
  | .peek => if c.position < c.records.length then some c.position else none
  | .jump target =>
    if c.position ≤ target ∧ target ≤ c.records.length then some target.toNat else none
  | .jumpToOffset offset => (c.indexOf? offset).filter fun target => c.position ≤ target

theorem jump_eq (c : Cursor) (target : Int) :
    (∃ j : Nat, c.moved? (.jump target) = some j ∧ c.jump target = .ok { c with position := j }) ∨
      c.moved? (.jump target) = none ∧ ∃ e, c.jump target = .error e := by
  unfold jump moved?
  by_cases before : target < c.position
  · have refused : ¬ ((c.position : Int) ≤ target ∧ target ≤ c.records.length) := by omega
    simp [before, refused]
  · by_cases beyond : target > c.records.length
    · have refused : ¬ ((c.position : Int) ≤ target ∧ target ≤ c.records.length) := by omega
      simp [before, beyond, refused]
    · have between : (c.position : Int) ≤ target ∧ target ≤ c.records.length := by omega
      simp [before, beyond, between]

theorem move_cases (c : Cursor) (m : CursorMove) :
    (∃ j, c.moved? m = some j ∧ c.move m = .ok { c with position := j }) ∨
      c.moved? m = none ∧ ∃ e, c.move m = .error e := by
  have reads : c.peek? = none ∧ ¬ c.position < c.records.length ∨
      ∃ r, c.peek? = some r ∧ c.position < c.records.length := by
    cases found : c.peek? with
    | none =>
      have ended : c.records.length ≤ c.position := List.getElem?_eq_none_iff.1 found
      exact .inl ⟨rfl, Nat.not_lt.2 ended⟩
    | some r => exact .inr ⟨r, rfl, lt_length_of_peek? found⟩
  cases m with
  | next =>
    rcases reads with ⟨found, ended⟩ | ⟨r, found, inside⟩
    · exact .inr ⟨if_neg ended, .exhausted c.position,
        by simp [move, Cursor.next, peek, found, bind, Except.bind, Except.map]⟩
    · refine .inl ⟨c.position + 1, if_pos inside, ?_⟩
      simp [move, Cursor.next, peek, found, advance_eq inside, bind, Except.bind, pure,
        Except.pure, Except.map]
  | peek =>
    rcases reads with ⟨found, ended⟩ | ⟨r, found, inside⟩
    · exact .inr ⟨if_neg ended, .exhausted c.position,
        by simp [move, Cursor.peek, found, Except.map]⟩
    · exact .inl ⟨c.position, if_pos inside, by simp [move, Cursor.peek, found, Except.map]⟩
  | jump target => exact c.jump_eq target
  | jumpToOffset offset =>
    cases known : c.indexOf? offset with
    | none =>
      exact .inr ⟨by simp [moved?, known], .noRecord offset, by simp [move, jumpToOffset, known]⟩
    | some target =>
      have within := Nat.le_of_lt (indexOf?_lt_length known)
      have same : c.moved? (.jumpToOffset offset) = c.moved? (.jump target) := by
        simp only [moved?, known, Option.filter_some, Int.ofNat_le, within, and_true,
          Int.toNat_natCast, decide_eq_true_eq]
      have leads : c.move (.jumpToOffset offset) = c.jump target := by
        simp only [move, jumpToOffset, known]
      rw [same, leads]
      exact c.jump_eq target

theorem moved?_between (leads : c.moved? m = some j) :
    c.position ≤ j ∧ j ≤ c.records.length := by
  cases m with
  | next =>
    obtain ⟨inside, here⟩ := Option.ite_none_right_eq_some.1 leads
    cases here
    omega
  | peek =>
    obtain ⟨inside, here⟩ := Option.ite_none_right_eq_some.1 leads
    cases here
    omega
  | jump target =>
    obtain ⟨⟨before, beyond⟩, here⟩ := Option.ite_none_right_eq_some.1 leads
    cases here
    omega
  | jumpToOffset offset =>
    obtain ⟨known, ahead⟩ := Option.filter_eq_some_iff.1 leads
    exact ⟨of_decide_eq_true ahead, Nat.le_of_lt (indexOf?_lt_length known)⟩

end Cursor

/-- What can be asked for: a move, or a step with some appliers. -/
inductive Use where
  | move (m : CursorMove)
  | dispatch (lookup : Lookup)

inductive Refusal where
  | cursor (error : CursorError)
  | dispatch (failure : Failure)
deriving Repr, DecidableEq

namespace Progress
variable {p q : Progress} {lookup : Lookup} {token : Token} {n : Nat}
  {ending : Except Failure RunStatus}

/-- A move that is refused leaves everything as it was; a step may fail after it has done things. -/
def use (p : Progress) : Use → Progress × Option Refusal
  | .move m =>
    match p.cursor.move m with
    | .ok cursor => ({ p with cursor }, none)
    | .error e => (p, some (.cursor e))
  | .dispatch lookup =>
    let step := p.dispatch lookup
    (step.progress, step.failure.map .dispatch)

def useAll (p : Progress) (uses : List Use) : Progress := uses.foldl (fun p u => (p.use u).1) p

def successes (p : Progress) : List Use → Nat
  | [] => 0
  | u :: later =>
    let counted := match u with
      | .move _ => 0
      | .dispatch lookup => if (p.dispatch lookup).failure = none then 1 else 0
    counted + (p.use u).1.successes later

theorem use_move_cases (p : Progress) (m : CursorMove) :
    (∃ j, p.cursor.moved? m = some j ∧
      p.use (.move m) = ({ p with cursor := ⟨p.cursor.records, j⟩ }, none)) ∨
    p.cursor.moved? m = none ∧ ∃ e, p.use (.move m) = (p, some (.cursor e)) := by
  rcases p.cursor.move_cases m with ⟨j, leads, moves⟩ | ⟨nowhere, e, refused⟩
  · exact .inl ⟨j, leads, by simp only [use, moves]⟩
  · exact .inr ⟨nowhere, e, by simp only [use, refused]⟩

theorem use_forwards (p : Progress) (u : Use) : p.cursor.Forwards (p.use u).1.cursor := by
  cases u with
  | move m =>
    rcases p.use_move_cases m with ⟨j, leads, moves⟩ | ⟨-, e, refused⟩
    · obtain ⟨behind, within⟩ := Cursor.moved?_between leads
      rw [moves]
      exact ⟨⟨rfl, behind⟩, fun _ => within⟩
    · rw [refused]
      exact .refl p.cursor
  | dispatch lookup => exact forwards_dispatch lookup p

theorem useAll_append (p : Progress) (uses later : List Use) :
    p.useAll (uses ++ later) = (p.useAll uses).useAll later := List.foldl_append

theorem forwards_useAll (p : Progress) (uses : List Use) :
    p.cursor.Forwards (p.useAll uses).cursor := by
  induction uses generalizing p with
  | nil => exact .refl p.cursor
  | cons u later ih => exact (p.use_forwards u).trans (ih (p.use u).1)

theorem successes_le (p : Progress) (uses : List Use) :
    p.cursor.position + p.successes uses ≤ (p.useAll uses).cursor.position := by
  induction uses generalizing p with
  | nil => exact Nat.le_refl _
  | cons u later ih =>
    have behind := ih (p.use u).1
    have ahead := (p.use_forwards u).position_le
    have onwards : (p.useAll (u :: later)) = (p.use u).1.useAll later := rfl
    rw [onwards]
    cases u with
    | move m =>
      simp only [successes]
      omega
    | dispatch lookup =>
      simp only [successes]
      split
      · next succeeds =>
        have further : p.cursor.position < (p.use (.dispatch lookup)).1.cursor.position :=
          position_lt_of_succeeds succeeds
        omega
      · omega

/-- What a round of the loop of a run leads to, if it is not the last. -/
def round? (lookup : Lookup) (p : Progress) (token : Token) : Option (Progress × Token) :=
  let asked := token.ask
  let step := p.dispatch lookup
  if asked.1 = false ∧ step.failure = none then
    some (step.progress, if step.cancels then asked.2.cancel else asked.2)
  else none

def rounds (lookup : Lookup) (p : Progress) (token : Token) : Nat → Option (Progress × Token)
  | 0 => some (p, token)
  | n + 1 =>
    match p.round? lookup token with
    | none => none
    | some (q, token) => q.rounds lookup token n

inductive EndsAt (lookup : Lookup) (p : Progress) (token : Token) (last : Progress) :
    Except Failure RunStatus → Prop where
  | cancelled (stops : token.ask.1 = true) (left : last = p) :
      EndsAt lookup p token last (.ok .cancelled)
  | completed {failure : Failure} (goes : token.ask.1 = false)
      (fails : (p.dispatch lookup).failure = some failure) (ends : failure.endsRun = true)
      (left : last = let q := (p.dispatch lookup).progress; q.report q.unclosed?) :
      EndsAt lookup p token last (.ok .completed)
  | failed {failure : Failure} (goes : token.ask.1 = false)
      (fails : (p.dispatch lookup).failure = some failure) (ends : failure.endsRun = false)
      (left : last = (p.dispatch lookup).progress) :
      EndsAt lookup p token last (.error failure)

theorem round?_eq_none (ends : p.EndsAt lookup token q ending) : p.round? lookup token = none := by
  cases ends with
  | cancelled stops => simp [round?, stops]
  | completed goes fails => simp [round?, fails]
  | failed goes fails => simp [round?, fails]

theorem rounds_succ {s : Progress × Token} (gone : p.rounds lookup token (n + 1) = some s) :
    (p.dispatch lookup).failure = none ∧
      ∃ t, (p.dispatch lookup).progress.rounds lookup t n = some s := by
  rw [rounds, round?] at gone
  split at gone
  · cases gone
  · next q t first =>
    obtain ⟨⟨-, succeeds⟩, same⟩ := Option.ite_none_right_eq_some.1 first
    cases same
    exact ⟨succeeds, _, gone⟩

theorem rounds_eq_some {t : Token} (gone : p.rounds lookup token n = some (q, t)) :
    q = p.useAll (List.replicate n (.dispatch lookup)) ∧
      p.successes (List.replicate n (.dispatch lookup)) = n := by
  induction n generalizing p token with
  | zero =>
    cases gone
    exact ⟨rfl, rfl⟩
  | succ n ih =>
    obtain ⟨succeeds, t', later⟩ := rounds_succ gone
    obtain ⟨reached, counted⟩ := ih later
    refine ⟨reached, ?_⟩
    rw [List.replicate_succ, successes]
    simp only [succeeds, ↓reduceIte, use]
    omega

theorem endsAt_of_fails {failure : Failure} (goes : token.ask.1 = false)
    (fails : (p.dispatch lookup).failure = some failure) :
    p.EndsAt lookup token (p.run lookup token).progress (p.run lookup token).ending := by
  rw [run_of_fails goes fails]
  cases ends : failure.endsRun with
  | true => exact .completed goes fails ends rfl
  | false => exact .failed goes fails ends rfl

theorem exists_rounds (lookup : Lookup) (p : Progress) (token : Token) :
    ∃ n q t, p.rounds lookup token n = some (q, t) ∧
      q.EndsAt lookup t (p.run lookup token).progress (p.run lookup token).ending := by
  induction p, token using calls.induct lookup with
  | case1 p token asked stops =>
    rw [run_of_cancelled stops]
    exact ⟨0, p, token, rfl, .cancelled stops rfl⟩
  | case2 p token asked goes step succeeds ih =>
    have goes : token.ask.1 = false := by simpa using goes
    obtain ⟨n, q, t, gone, ends⟩ := ih
    have first : p.round? lookup token = some (step.progress,
        if step.cancels then token.ask.2.cancel else token.ask.2) := if_pos ⟨goes, succeeds⟩
    rw [run_of_succeeds goes succeeds]
    exact ⟨n + 1, q, t, by rw [rounds, first]; exact gone, ends⟩
  | case3 p token asked goes step fails =>
    have goes : token.ask.1 = false := by simpa using goes
    obtain ⟨failure, fails⟩ := Option.ne_none_iff_exists'.1 fails
    exact ⟨0, p, token, rfl, endsAt_of_fails goes fails⟩

theorem total_rounds {t : Token} (gone : p.rounds lookup token n = some (q, t)) :
    q.tally.total = p.tally.total + n := by
  induction n generalizing p token with
  | zero =>
    cases gone
    rfl
  | succ n ih =>
    obtain ⟨succeeds, t', later⟩ := rounds_succ gone
    rcases dispatch_counts lookup p with ⟨-, counted⟩ | ⟨failure, fails, -⟩
    · rw [ih later, counted.total_eq]
      omega
    · rw [fails] at succeeds
      cases succeeds

theorem EndsAt.total_eq (ends : p.EndsAt lookup token q ending) :
    q.tally.total = p.tally.total := by
  have uncounted : ∀ failure, (p.dispatch lookup).failure = some failure →
      (p.dispatch lookup).progress.tally = p.tally := by
    intro failure fails
    rcases dispatch_counts lookup p with ⟨succeeds, -⟩ | ⟨-, -, same, -⟩
    · rw [succeeds] at fails
      cases fails
    · exact same
  cases ends with
  | cancelled stops left => rw [left]
  | completed goes fails ends left => rw [left, total_report, uncounted _ fails]
  | failed goes fails ends left => rw [left, uncounted _ fails]

end Progress

/-- In whatever state a cursor is after any uses of it: it only goes forwards, by a record at least
over every step that succeeds, and a run with any appliers is over after the last record. -/
theorem cursor_goes_forwards_to_end (context : Context) (records : List Record) (tally : Tally)
    (uses : List Use) :
    let p := ({ context, cursor := { records }, tally } : Progress).useAll uses
    let start := p.cursor.position
    p.cursor.records = records ∧
    (∀ later, let q := p.useAll later
      q.cursor.records = records ∧ start + p.successes later ≤ q.cursor.position ∧
        q.cursor.position ≤ records.length) ∧
    (∀ m, (∃ j, p.cursor.moved? m = some j ∧ start ≤ j ∧ j ≤ records.length ∧
        p.use (.move m) = ({ p with cursor := ⟨records, j⟩ }, none)) ∨
      p.cursor.moved? m = none ∧ ∃ e, p.use (.move m) = (p, some (.cursor e))) ∧
    (∀ lookup, let step := p.dispatch lookup
      step.failure = none ∧ start + 1 ≤ step.progress.cursor.position ∧
          p.tally.CountsOne step.progress.tally ∨
        ∃ failure, step.failure = some failure ∧ step.progress.tally = p.tally ∧
          (p.cursor.peek? = none ∨ ∃ r a, p.cursor.peek? = some r ∧ lookup r.kind = some a ∧
            (a.apply p.context p.cursor r).ending = .failure failure)) ∧
    (start = records.length → ∀ lookup,
      p.dispatch lookup = { progress := p, failure := some (.exhausted start) }) ∧
    ∀ lookup token, let outcome := p.run lookup token
      (∀ n q t, p.rounds lookup token n = some (q, t) → n ≤ records.length - start) ∧
      ∃ n q t, p.rounds lookup token n = some (q, t) ∧ q.round? lookup t = none ∧
        q.EndsAt lookup t outcome.progress outcome.ending ∧
        outcome.progress.tally.total = p.tally.total + n := by
  intro p start
  have ahead : ∀ later, (p.useAll later).cursor.records = records ∧
      (p.useAll later).cursor.position ≤ records.length := by
    intro later
    have onwards := Progress.forwards_useAll
      { context, cursor := { records }, tally } (uses ++ later)
    have within := onwards.within (Nat.zero_le records.length)
    have same := onwards.records_eq
    rw [Progress.useAll_append] at within same
    exact ⟨same, Nat.le_trans within (Nat.le_of_eq (congrArg List.length same))⟩
  have here : p.cursor.records = records := (ahead []).1
  have most : ∀ later, start + p.successes later ≤ (p.useAll later).cursor.position :=
    p.successes_le
  refine ⟨here, fun later => ⟨(ahead later).1, most later, (ahead later).2⟩, ?_, ?_, ?_, ?_⟩
  · intro m
    rcases p.use_move_cases m with ⟨j, leads, moves⟩ | refused
    · obtain ⟨behind, within⟩ := Cursor.moved?_between leads
      rw [here] at within moves
      exact .inl ⟨j, leads, behind, within, moves⟩
    · exact .inr refused
  · intro lookup step
    refine (Progress.dispatch_counts lookup p).imp_left ?_
    rintro ⟨succeeds, counted⟩
    exact ⟨succeeds, Progress.position_lt_of_succeeds succeeds, counted⟩
  · intro ended lookup
    refine Progress.dispatch_exhausted (List.getElem?_eq_none_iff.2 ?_)
    rw [here]
    exact Nat.le_of_eq ended.symm
  · intro lookup token outcome
    constructor
    · intro n q t gone
      obtain ⟨-, counted⟩ := Progress.rounds_eq_some gone
      have further := most (List.replicate n (.dispatch lookup))
      have within := (ahead (List.replicate n (.dispatch lookup))).2
      omega
    · obtain ⟨n, q, t, gone, ends⟩ := p.exists_rounds lookup token
      exact ⟨n, q, t, gone, Progress.round?_eq_none ends, ends,
        ends.total_eq.trans (Progress.total_rounds gone)⟩

end SymbolRecovery
