import LoxLexis.Proofs.Scanner.History
import LoxLexis.Proofs.Scanner.Outcome

/-!
# Lists that have been given away

A completed scan gives its list of tokens away, and the scanner goes on with the same list.  So what
is appended later is seen by whoever was given the list, until the next scan begins another one.

To say of a list that it is the same one, every list that a scanner has begun gets a place, and a
lender is a scanner with the lists at all those places.  An operation may write what it likes into the
present list, and can reach no other; a scan begins a new one, whether it completes or not.  That
nothing but the end of a list is written to is not laid down thereby, and has to be proved.

## Main definitions

* `Lender` — a scanner and all the lists that it has begun
* `Operation.appends` — the operations that may append a token to the present list
* `Lender.Accounts` — what the places of a lender have to do with what its scanner shows
* `Lender.KeepsList` — what becomes of a list that a scan has begun

## Main statements

* `Operation.perform_tokens` — what an operation on the present list can do to it
* `Lender.accounts_run` — the lists given away are those that the scanner shows
* `Lender.keepsList_run` — no history disturbs a list that has been given away
-/

namespace LoxLexis

variable {σ ε : Type}

/-- A scanner with the state of its reporter and with all the lists that it has begun. -/
structure Lender (σ : Type) where
  scanner : Scanner
  sink : σ
  /-- The lists begun so far, as they are now. -/
  lists : List (List Token)
  /-- The place of the present list, the one that the scanner goes on with. -/
  present : Nat
  /-- The places of the lists that were given away. -/
  given : List Nat

/-- The operations that may append a token to the present list. -/
def Operation.appends : Operation → Bool
  | next | scanToken | scanString | scanNumber | addToken .. => true
  | _ => false

namespace Lender

/-- A new scanner has begun one list, and given none away. -/
def new (source : Text) (sink : σ) : Lender σ where
  scanner := .new source
  sink := sink
  lists := [[]]
  present := 0
  given := []

/-- What is left after an operation. -/
def after (reporter : Reporter σ ε) (l : Lender σ) (operation : Operation) : Lender σ :=
  let left := operation.perform reporter l.scanner l.sink
  match operation with
  | .scan =>
    { scanner := left.scanner
      sink := left.sink
      lists := l.lists ++ [left.scanner.tokens]
      present := l.lists.length
      given := l.given ++ if left.result.isOk then [l.lists.length] else [] }
  | _ =>
    { l with
      scanner := left.scanner
      sink := left.sink
      lists := l.lists.set l.present left.scanner.tokens }

/-- What is left after a history. -/
def run (reporter : Reporter σ ε) (l : Lender σ) (history : List Operation) : Lender σ :=
  history.foldl (after reporter) l

/-- The list at a place. -/
def read (l : Lender σ) (place : Nat) : List Token := l.lists[place]?.getD []

/-- What the places of a lender have to do with what its scanner shows. -/
structure Accounts (l : Lender σ) : Prop where
  last : l.lists.length = l.present + 1
  tokens : l.lists[l.present]? = some l.scanner.tokens
  /-- The present list is given away if it is lent, and the others were begun before it. -/
  given : ∃ older, l.given = older ++ (if l.scanner.lent then [l.present] else []) ∧
    (∀ k ∈ older, k < l.present) ∧ older.map l.read = l.scanner.earlier

/-- What becomes of the list that a scan begins, and of the lists begun before, in the history that
follows the scan. -/
structure KeepsList (reporter : Reporter σ ε) (l : Lender σ) (history : List Operation) : Prop where
  /-- The places have no part in what the scanner does. -/
  alone : ((l.run reporter (.scan :: history)).scanner, (l.run reporter (.scan :: history)).sink) =
    Operation.performAll reporter l.scanner l.sink (.scan :: history)
  /-- The list that a scan answers is the one that it has begun. -/
  answer : ∀ tokens,
    (Operation.scan.perform reporter l.scanner l.sink).result = .ok (.tokens tokens) →
      (l.after reporter .scan).lists[l.lists.length]? = some tokens
  /-- It has been given away if the scan has completed, and otherwise it never is. -/
  given : l.lists.length ∈ (l.run reporter (.scan :: history)).given ↔
    ∃ tokens, (Operation.scan.perform reporter l.scanner l.sink).result = .ok (.tokens tokens)
  /-- It is what the scanner has made of it by the time when the next scan starts. -/
  list : (l.run reporter (.scan :: history)).lists[l.lists.length]? =
    some (Operation.performAll reporter (l.after reporter .scan).scanner
      (l.after reporter .scan).sink (history.takeWhile (· ≠ .scan))).1.tokens
  /-- Lists begun before are what they were when the scan started. -/
  older : ∀ k < l.lists.length, (l.run reporter (.scan :: history)).lists[k]? = l.lists[k]?
  /-- Only an operation that appends tokens changes a list, and then it completes and appends one
  token to the present list. -/
  changes : ∀ operation k list, (l.run reporter (.scan :: history)).lists[k]? = some list →
    ((l.run reporter (.scan :: history)).after reporter operation).lists[k]? = some list ∨
      k = (l.run reporter (.scan :: history)).present ∧ operation.appends = true ∧
        (operation.perform reporter (l.run reporter (.scan :: history)).scanner
          (l.run reporter (.scan :: history)).sink).result = .ok .nothing ∧
        ∃ token, ((l.run reporter (.scan :: history)).after reporter operation).lists[k]? =
          some (list ++ [token])
  /-- All lists keep their elements in place for good, and one that is not present now never grows. -/
  grows : ∀ later k list, (l.run reporter (.scan :: history)).lists[k]? = some list →
    ∃ more, ((l.run reporter (.scan :: history)).run reporter later).lists[k]? =
        some (list ++ more) ∧
      (k ≠ (l.run reporter (.scan :: history)).present → more = [])
  /-- The list of the latest scan is the present one. -/
  present : (l.run reporter (.scan :: history)).present = l.lists.length ↔ .scan ∉ history
  /-- The present list is the one that the scanner shows. -/
  tokens : (l.run reporter (.scan :: history)).lists[(l.run reporter (.scan :: history)).present]? =
    some (l.run reporter (.scan :: history)).scanner.tokens
  /-- The lists given away are those that the scanner shows as such. -/
  held : (l.run reporter (.scan :: history)).scanner.held =
    (l.run reporter (.scan :: history)).given.map (l.run reporter (.scan :: history)).read

end Lender

/-! ### What operations do to the lists of a scanner -/

namespace Scanner

variable {s t : Scanner}

/-- Steps have no part in giving lists away. -/
theorem lent_and_earlier_of_outcome {result : Except (Failure ε) Answer}
    (h : s.Outcome t result) : t.lent = s.lent ∧ t.earlier = s.earlier := by
  cases h with
  | moved moves =>
      rw [moves.frame]
      exact ⟨rfl, rfl⟩
  | token moves kind literal =>
      rw [moves.frame]
      exact ⟨rfl, rfl⟩

/-- A scan keeps the lists given away before, and adds its own if it completes. -/
theorem scan_lists (reporter : Reporter σ ε) (s : Scanner) (sink : σ) :
    (s.scan reporter sink).scanner.earlier = s.held ∧
      (s.scan reporter sink).scanner.lent = (s.scan reporter sink).result.isOk := by
  have step (t : Scanner) (h : t.lent = false ∧ t.earlier = s.held) :
      t.next.1.lent = false ∧ t.next.1.earlier = s.held := by
    obtain ⟨lent, earlier⟩ := lent_and_earlier_of_outcome (Operation.outcome_next Reporter.keep t [])
    exact ⟨lent.trans h.1, earlier.trans h.2⟩
  obtain ⟨lent, earlier⟩ :=
    run_preserves step reporter s.restarted sink (show _ ∧ _ from ⟨rfl, rfl⟩)
  unfold scan
  dsimp only
  split
  · exact ⟨earlier, rfl⟩
  · exact ⟨earlier, lent⟩

end Scanner

namespace Operation

variable (reporter : Reporter σ ε) (s : Scanner) (sink : σ) {operation : Operation}

theorem perform_lent_and_earlier (h : operation ≠ .scan) :
    (operation.perform reporter s sink).scanner.lent = s.lent ∧
      (operation.perform reporter s sink).scanner.earlier = s.earlier := by
  cases operation with
  | scan => exact absurd rfl h
  | assign => exact ⟨rfl, rfl⟩
  | _ => exact Scanner.lent_and_earlier_of_outcome (outcome reporter s sink rfl)

theorem perform_tokens_of_not_appends (h : operation ≠ .scan) (not : operation.appends = false) :
    (operation.perform reporter s sink).scanner.tokens = s.tokens := by
  cases operation with
  | scan => exact absurd rfl h
  | advance =>
      simp only [perform]
      unfold Scanner.advance
      cases s.rest <;> rfl
  | accept expected => exact (moves_accept s expected).tokens
  | assign => rfl
  | peek => rfl
  | peekNext => rfl
  | atEnd => rfl
  | error message => rfl
  | _ => cases not

/-- A scan answers the tokens that it leaves. -/
theorem tokens_of_scan {tokens : List Token}
    (h : (scan.perform reporter s sink).result = .ok (.tokens tokens)) :
    (scan.perform reporter s sink).scanner.tokens = tokens := by
  simp only [perform, Scanner.scan] at h ⊢
  split at h
  · exact Answer.tokens.inj (Except.ok.inj h)
  · cases h

/-- A scan answers its tokens if it completes. -/
theorem isOk_scan_iff : (scan.perform reporter s sink).result.isOk = true ↔
    ∃ tokens, (scan.perform reporter s sink).result = .ok (.tokens tokens) := by
  simp only [perform]
  cases (s.scan reporter sink).result with
  | ok tokens => exact iff_of_true rfl ⟨tokens, rfl⟩
  | error failure =>
      refine iff_of_false Bool.false_ne_true ?_
      rintro ⟨tokens, answered⟩
      cases answered

/-- **What an operation on the present list can do to it.** -/
theorem perform_tokens (h : operation ≠ .scan) :
    (operation.perform reporter s sink).scanner.tokens = s.tokens ∨
      operation.appends = true ∧ (operation.perform reporter s sink).result = .ok .nothing ∧
        ∃ token, (operation.perform reporter s sink).scanner.tokens = s.tokens ++ [token] := by
  cases appends : operation.appends with
  | false => exact .inl (perform_tokens_of_not_appends reporter s sink h appends)
  | true =>
      have step : operation.isStep = true := by
        cases operation with
        | scan => exact absurd rfl h
        | assign => cases appends
        | _ => rfl
      have outcome := outcome reporter s sink step
      generalize (operation.perform reporter s sink).scanner = t at outcome ⊢
      generalize (operation.perform reporter s sink).result = result at outcome ⊢
      cases outcome with
      | moved moves => exact .inl moves.tokens
      | token moves kind literal =>
          exact .inr ⟨rfl, rfl, _, congrArg (· ++ _) moves.tokens⟩

end Operation

/-! ### Lists and their places -/

namespace Lender

variable {reporter : Reporter σ ε} {l : Lender σ}

theorem after_of_ne {operation : Operation} (h : operation ≠ .scan) :
    l.after reporter operation =
      { l with
        scanner := (operation.perform reporter l.scanner l.sink).scanner
        sink := (operation.perform reporter l.scanner l.sink).sink
        lists := l.lists.set l.present
          (operation.perform reporter l.scanner l.sink).scanner.tokens } := by
  cases operation with
  | scan => exact absurd rfl h
  | _ => rfl

/-- The scanner of a lender goes the way that it goes by itself. -/
theorem scanner_run (l : Lender σ) (history : List Operation) :
    ((l.run reporter history).scanner, (l.run reporter history).sink) =
      Operation.performAll reporter l.scanner l.sink history := by
  induction history generalizing l with
  | nil => rfl
  | cons operation history ih =>
      refine (ih (l.after reporter operation)).trans ?_
      cases operation <;> rfl

/-! ### What a list is from one operation to the next -/

theorem lists_after_scan {k : Nat} (h : k < l.lists.length) :
    (l.after reporter .scan).lists[k]? = l.lists[k]? :=
  List.getElem?_append_left h

theorem lists_after_of_ne {operation : Operation} (h : operation ≠ .scan) {k : Nat}
    (hk : k ≠ l.present) : (l.after reporter operation).lists[k]? = l.lists[k]? := by
  rw [after_of_ne h]
  exact List.getElem?_set_ne (Ne.symm hk)

theorem read_congr {l' : Lender σ} {k : Nat} (h : l'.lists[k]? = l.lists[k]?) :
    l'.read k = l.read k := congrArg (Option.getD · []) h

/-- The present list is no more the present one after a scan, and else it stays so. -/
theorem present_after (accounts : Accounts l) (operation : Operation) :
    (l.after reporter operation).present =
      l.present + if operation = .scan then 1 else 0 := by
  by_cases scan : operation = .scan
  · rw [if_pos scan, scan]
    exact accounts.last
  · rw [if_neg scan, after_of_ne scan]
    rfl

namespace Accounts

theorem new (source : Text) (sink : σ) : Accounts (Lender.new source sink) where
  last := rfl
  tokens := rfl
  given := ⟨[], rfl, nofun, rfl⟩

theorem present_lt (h : Accounts l) : l.present < l.lists.length := by
  rw [h.last]
  exact Nat.lt_succ_self _

theorem given_lt (h : Accounts l) {k : Nat} (given : k ∈ l.given) : k < l.lists.length := by
  obtain ⟨older, all, before, -⟩ := h.given
  rw [all] at given
  rcases List.mem_append.mp given with mem | mem
  · exact Nat.lt_trans (before k mem) h.present_lt
  · split at mem
    · rw [List.mem_singleton.mp mem]
      exact h.present_lt
    · cases mem

/-- The lists given away are those that the scanner shows. -/
theorem held (h : Accounts l) : l.scanner.held = l.given.map l.read := by
  obtain ⟨older, all, -, earlier⟩ := h.given
  rw [all, List.map_append, earlier, Scanner.held]
  cases l.scanner.lent with
  | false => rfl
  | true =>
      have present : l.read l.present = l.scanner.tokens := by rw [read, h.tokens]; rfl
      simp [present]

/-- **Every operation keeps the accounts.** -/
theorem after (reporter : Reporter σ ε) (h : Accounts l) (operation : Operation) :
    Accounts (l.after reporter operation) := by
  by_cases scan : operation = .scan
  · subst scan
    obtain ⟨earlier, lent⟩ := Scanner.scan_lists reporter l.scanner l.sink
    have answered : (l.after reporter .scan).scanner.lent =
        (Operation.scan.perform reporter l.scanner l.sink).result.isOk := by
      refine lent.trans ?_
      simp only [Operation.perform]
      cases (l.scanner.scan reporter l.sink).result <;> rfl
    exact {
      last := List.length_append
      tokens := List.getElem?_concat_length
      -- What was given away before is older now, the list of the scanner included.
      given := by
        refine ⟨l.given, by rw [answered]; rfl, fun k => h.given_lt, ?_⟩
        refine Eq.trans ?_ (h.held.symm.trans earlier.symm)
        exact List.map_congr_left fun k given => read_congr (lists_after_scan (h.given_lt given)) }
  · rw [after_of_ne scan]
    obtain ⟨lent, earlier⟩ := Operation.perform_lent_and_earlier reporter l.scanner l.sink scan
    obtain ⟨older, all, before, read⟩ := h.given
    exact {
      last := List.length_set.trans h.last
      tokens := List.getElem?_set_self h.present_lt
      given := by
        refine ⟨older, by rw [lent, all], before, ?_⟩
        rw [earlier, ← read]
        exact List.map_congr_left fun k mem =>
          read_congr (List.getElem?_set_ne (Nat.ne_of_gt (before k mem))) }

end Accounts

/-- **Whatever the history, the accounts are right.** -/
theorem accounts_run (reporter : Reporter σ ε) {l : Lender σ} (h : Accounts l)
    (history : List Operation) : Accounts (l.run reporter history) := by
  induction history generalizing l with
  | nil => exact h
  | cons operation history ih => exact ih (h.after reporter operation)

/-! ### What a list is from one history to the next -/

/-- **An operation changes a list only by appending one token to the present one.** -/
theorem after_changes (h : Accounts l) (operation : Operation) {k : Nat} {list : List Token}
    (hk : l.lists[k]? = some list) :
    (l.after reporter operation).lists[k]? = some list ∨
      k = l.present ∧ operation.appends = true ∧
        (operation.perform reporter l.scanner l.sink).result = .ok .nothing ∧
        ∃ token, (l.after reporter operation).lists[k]? = some (list ++ [token]) := by
  by_cases scan : operation = .scan
  · rw [scan, lists_after_scan (List.getElem?_eq_some_iff.mp hk).1]
    exact .inl hk
  · by_cases present : k = l.present
    · subst present
      obtain rfl : l.scanner.tokens = list := Option.some.inj (h.tokens.symm.trans hk)
      have now : (l.after reporter operation).lists[l.present]? =
          some (operation.perform reporter l.scanner l.sink).scanner.tokens := by
        rw [after_of_ne scan]
        exact List.getElem?_set_self h.present_lt
      rw [now]
      rcases Operation.perform_tokens reporter l.scanner l.sink scan with
        same | ⟨appends, completes, token, one⟩
      · exact .inl (congrArg some same)
      · exact .inr ⟨rfl, appends, completes, token, congrArg some one⟩
    · rw [lists_after_of_ne scan present]
      exact .inl hk

/-- **A list keeps its elements in place, and grows only as long as it is the present one.** -/
theorem run_grows (reporter : Reporter σ ε) (h : Accounts l) (history : List Operation) {k : Nat}
    {list : List Token} (hk : l.lists[k]? = some list) :
    ∃ more, (l.run reporter history).lists[k]? = some (list ++ more) ∧
      (k ≠ l.present → more = []) := by
  induction history generalizing l list with
  | nil => exact ⟨[], by rw [List.append_nil]; exact hk, fun _ => rfl⟩
  | cons operation history ih =>
      have accounts := h.after reporter operation
      -- A list that is not present does not become so, for scans begin new ones.
      have stays (past : k ≠ l.present) : k ≠ (l.after reporter operation).present := by
        have := (List.getElem?_eq_some_iff.mp hk).1
        have := h.last
        rw [present_after h]
        split <;> omega
      rcases after_changes h operation hk with same | ⟨present, -, -, token, one⟩
      · obtain ⟨more, all, past⟩ := ih accounts same
        exact ⟨more, all, fun ne => past (stays ne)⟩
      · obtain ⟨more, all, -⟩ := ih accounts one
        exact ⟨token :: more, by rw [List.append_cons]; exact all, fun ne => absurd present ne⟩

theorem run_lists_of_ne (h : Accounts l) (history : List Operation) {k : Nat} {list : List Token}
    (hk : l.lists[k]? = some list) (past : k ≠ l.present) :
    (l.run reporter history).lists[k]? = some list := by
  obtain ⟨more, all, none⟩ := run_grows reporter h history hk
  rw [all, none past, List.append_nil]

/-- Every scan begins one list. -/
theorem present_run (h : Accounts l) (history : List Operation) :
    (l.run reporter history).present = l.present + history.count .scan := by
  induction history generalizing l with
  | nil => rfl
  | cons operation history ih =>
      refine (ih (h.after reporter operation)).trans ?_
      rw [present_after h, List.count_cons]
      simp only [beq_iff_eq]
      omega

/-- The present list is what the scanner makes of it until the next scan starts. -/
theorem run_lists_present (h : Accounts l) (history : List Operation) :
    (l.run reporter history).lists[l.present]? =
      some (Operation.performAll reporter l.scanner l.sink
        (history.takeWhile (· ≠ .scan))).1.tokens := by
  induction history generalizing l with
  | nil => exact h.tokens
  | cons operation history ih =>
      have accounts := h.after reporter operation
      by_cases scan : operation = .scan
      · subst scan
        have begun : l.present ≠ (l.after reporter .scan).present := Nat.ne_of_lt h.present_lt
        exact run_lists_of_ne accounts history ((lists_after_scan h.present_lt).trans h.tokens) begun
      · have later := ih accounts
        rw [present_after h, if_neg scan, after_of_ne scan] at later
        rw [List.takeWhile_cons_of_pos (by simpa using scan)]
        refine Eq.trans ?_ later
        rw [← after_of_ne scan]
        rfl

/-- Only the scan that begins a list can give it away. -/
theorem mem_given_after (operation : Operation) {k : Nat} (hk : k < l.lists.length) :
    k ∈ (l.after reporter operation).given ↔ k ∈ l.given := by
  by_cases scan : operation = .scan
  · subst scan
    have other : k ∉ if (Operation.scan.perform reporter l.scanner l.sink).result.isOk then
        [l.lists.length] else [] := by
      split
      · exact fun mem => Nat.ne_of_lt hk (List.mem_singleton.mp mem)
      · exact List.not_mem_nil
    exact List.mem_append.trans (or_iff_left other)
  · rw [after_of_ne scan]

theorem mem_given_run (h : Accounts l) (history : List Operation) {k : Nat}
    (hk : k < l.lists.length) : k ∈ (l.run reporter history).given ↔ k ∈ l.given := by
  induction history generalizing l with
  | nil => exact Iff.rfl
  | cons operation history ih =>
      have accounts := h.after reporter operation
      have still : k < (l.after reporter operation).lists.length := by
        have := h.last
        rw [accounts.last, present_after h]
        omega
      exact (ih accounts still).trans (mem_given_after operation hk)

/-- A scan gives its list away if it completes. -/
theorem mem_given_scan (h : Accounts l) :
    l.lists.length ∈ (l.after reporter .scan).given ↔
      (Operation.scan.perform reporter l.scanner l.sink).result.isOk = true := by
  have fresh : l.lists.length ∉ l.given := fun given => Nat.lt_irrefl _ (h.given_lt given)
  refine (List.mem_append.trans (or_iff_right fresh)).trans ?_
  split
  · next completes => exact iff_of_true (List.mem_singleton_self _) completes
  · next fails => exact iff_of_false List.not_mem_nil fails

theorem keepsList_of_accounts (reporter : Reporter σ ε) (h : Accounts l)
    (history : List Operation) : KeepsList reporter l history := by
  have begun := h.after reporter .scan
  have now := accounts_run reporter begun history
  exact {
    alone := scanner_run l (.scan :: history)
    answer := fun tokens answered => by
      rw [← Operation.tokens_of_scan reporter l.scanner l.sink answered]
      exact begun.tokens
    given :=
      ((mem_given_run begun history begun.present_lt).trans (mem_given_scan h)).trans
        (Operation.isOk_scan_iff reporter l.scanner l.sink)
    list := run_lists_present begun history
    older := fun k hk => by
      have was := List.getElem?_eq_getElem hk
      rw [was]
      exact run_lists_of_ne begun history ((lists_after_scan hk).trans was) (Nat.ne_of_lt hk)
    changes := fun operation k list hk => after_changes now operation hk
    grows := fun later k list hk => run_grows reporter now later hk
    present := by
      refine Iff.trans ?_ List.count_eq_zero
      show ((l.after reporter .scan).run reporter history).present = l.lists.length ↔ _
      rw [present_run begun]
      exact Nat.add_eq_left
    tokens := now.tokens
    held := now.held }

/-- **No history disturbs a list that has been given away**, whatever has been done to the scanner
before the scan that began the list. -/
theorem keepsList_run (reporter : Reporter σ ε) (source : Text) (sink : σ)
    (before history : List Operation) :
    KeepsList reporter ((Lender.new source sink).run reporter before) history :=
  keepsList_of_accounts reporter (accounts_run reporter (.new source sink) before) history

/-- What is appended after a scan is seen in its list, and no more after the next scan has begun. -/
example :
    let l := (Lender.new "+".toList []).run Reporter.keep
      [.scan, .addToken .minus none, .scan, .addToken .comma none]
    l.given = [1, 2] ∧ (l.read 1).map Token.kind = [.plus, .endOfFile, .minus] ∧
      (l.read 2).map Token.kind = [.plus, .endOfFile, .comma] := by
  decide +kernel

end Lender

end LoxLexis
