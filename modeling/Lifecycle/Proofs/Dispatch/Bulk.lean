import Lifecycle.Proofs.Comparison.Order
import Lifecycle.Proofs.Dispatch
import Lifecycle.Proofs.Record.Action
import Lifecycle.Proofs.Replay.Answers

namespace Lifecycle

namespace Dispatch

abbrev Entries := List (String × Outcome)

-- The tallies of a bulk action tell these entries: each counts once, and of a user who
-- came more than once the last entry is kept.
structure Bulk.Tells (b : Bulk) (entries : Entries) : Prop where
  processed : b.processed = entries.length
  succeeded : b.succeeded = entries.countP (·.2.success)
  skipped : b.skipped = entries.countP fun x => !x.2.success && x.2.skipped
  failed : b.failed = entries.countP fun x => !x.2.success && !x.2.skipped
  distinct : (b.results.map Prod.fst).Nodup
  last : ∀ user o, (user, o) ∈ b.results ↔ entries.reverse.lookup user = some o

namespace Bulk

variable {b : Bulk} {entries more : Entries} {user : String} {o : Outcome}

def start (limitReached : Bool) : Bulk := ⟨0, 0, 0, 0, limitReached, []⟩

theorem start_tells (limitReached : Bool) : (start limitReached).Tells [] :=
  ⟨rfl, rfl, rfl, rfl, .nil, fun _ _ => iff_of_false List.not_mem_nil nofun⟩

theorem count_results (b : Bulk) (user : String) (o : Outcome) :
    (b.count user o).results = put Prod.fst b.results (user, o) := by
  unfold count
  split
  · rfl
  · split <;> rfl

theorem count_limitReached (b : Bulk) (user : String) (o : Outcome) :
    (b.count user o).limitReached = b.limitReached := by
  unfold count
  split
  · rfl
  · split <;> rfl

theorem count_tells (told : b.Tells entries) : (b.count user o).Tells (entries ++ [(user, o)]) := by
  obtain ⟨processed, succeeded, skipped, failed, distinct, last⟩ := told
  refine ⟨?_, ?_, ?_, ?_, ?_, ?_⟩
  · cases o with
    | mk success error passed => cases success <;> cases passed <;> simp [count, processed]
  · cases o with
    | mk success error passed => cases success <;> cases passed <;> simp [count, succeeded]
  · cases o with
    | mk success error passed => cases success <;> cases passed <;> simp [count, skipped]
  · cases o with
    | mk success error passed => cases success <;> cases passed <;> simp [count, failed]
  · rw [count_results]
    exact put_nodup distinct
  · intro name found
    rw [count_results, mem_put, last, List.reverse_append, List.reverse_singleton, List.singleton_append,
      List.lookup_cons]
    by_cases same : name = user
    · subst same
      simp [eq_comm]
    · simp [beq_eq_false_iff_ne.mpr same, same]

def countAll (b : Bulk) (entries : Entries) : Bulk := entries.foldl (fun b x => b.count x.1 x.2) b

theorem countAll_tells (told : b.Tells entries) : (b.countAll more).Tells (entries ++ more) := by
  induction more generalizing b entries with
  | nil => rwa [List.append_nil]
  | cons x more ih =>
    have one : (b.count x.1 x.2).Tells (entries ++ [(x.1, x.2)]) := count_tells told
    have next := ih one
    rwa [List.append_assoc] at next

theorem countAll_limitReached (b : Bulk) (entries : Entries) : (b.countAll entries).limitReached = b.limitReached := by
  induction entries generalizing b with
  | nil => rfl
  | cons x entries ih => exact (ih (b.count x.1 x.2)).trans (count_limitReached b x.1 x.2)

theorem Tells.total (told : b.Tells entries) : b.processed = b.succeeded + b.failed + b.skipped := by
  rw [told.processed, told.succeeded, told.failed, told.skipped]
  clear told
  induction entries with
  | nil => rfl
  | cons x entries ih =>
    obtain ⟨user, success, error, passed⟩ := x
    cases success <;> cases passed <;> simp [ih] <;> omega

theorem Tells.users (told : b.Tells entries) (user : String) :
    user ∈ b.results.map Prod.fst ↔ user ∈ entries.map Prod.fst := by
  have kept : user ∈ b.results.map Prod.fst ↔ (entries.reverse.lookup user).isSome := by
    simp [Option.isSome_iff_exists, ← told.last]
  simp [kept, List.lookup_isSome_iff]

end Bulk

abbrev Dealings := List (Turn × Outcome)

def Dealings.entries (dealings : Dealings) : Entries := dealings.map fun x => (x.1.user, x.2)

variable (s : Store) (d : Dispatcher) (conditions : List Condition) (p : Payload)

-- What a payload comes to at one turn, and what is handed over for it.
inductive Handled (log : List Attempt) (turn : Turn) : Outcome → List Attempt → Prop where
  | unknown (absent : context? turn.engine s turn.user = .ok none) : Handled log turn (.failed "User not found") []
  | unmet (seen : context? turn.engine s turn.user = .ok (some context))
    (fails : Condition.evaluate context conditions = .ok false) : Handled log turn .unmet []
  | given (seen : context? turn.engine s turn.user = .ok (some context))
    (holds : Condition.evaluate context conditions = .ok true) :
    Handled log turn (outcomeOf (d log turn.user p)) [⟨turn.user, p, d log turn.user p⟩]

-- One turn after the other; what was handed over at the earlier ones is known to the dispatcher.
inductive Proceeds : List Attempt → List Turn → Dealings → List Attempt → Prop where
  | nil : Proceeds log [] [] []
  | cons (handled : Handled s d conditions p log turn o made) (later : Proceeds (log ++ made) rest dealings calls) :
    Proceeds log (turn :: rest) ((turn, o) :: dealings) (made ++ calls)

def fits (turn : Turn) : Bool :=
  match context? turn.engine s turn.user with
  | .ok (some context) => (Condition.evaluate context conditions).toOption = some true
  | _ => false

-- If the store knows the user there is a context, and in it the conditions are decided.
def Answerable (turn : Turn) : Prop :=
  ∀ facts, s.user? turn.user = some facts → ∃ context verdict,
    Context.build facts turn.engine.now turn.engine.config.lowBalanceThreshold = .ok context ∧
      Condition.evaluate context conditions = .ok verdict

def Refused (type config : Json) (message : String) : Prop :=
  ActionType.ofJson? type = none ∧ message = "Invalid action type: " ++ type.display ∨
    (ActionType.ofJson? type).isSome ∧
      ∃ f, Payload.decode type config = .error f ∧ f.family = .badValue ∧ message = f.message

variable {e : Engine} {s : Store} {d : Dispatcher} {conditions : List Condition} {p : Payload} {log : List Attempt}
  {type config : Json} {turn : Turn} {turns : List Turn}

theorem payload_refused : payload type config = .ok (.error message) ↔ Refused type config message := by
  unfold payload Refused
  cases named : ActionType.ofJson? type with
  | none => simp [eq_comm]
  | some t =>
    cases decoded : Payload.decode type config with
    | ok p => simp
    | error f =>
      by_cases value : f.family = .badValue
      · simp [value, eq_comm]
      · simp [value]

theorem payload_read (read : payload type config = .ok (.ok p)) : Payload.decode type config = .ok p := by
  unfold payload at read
  split at read
  · cases read
  · split at read
    · cases read
      assumption
    · split at read <;> cases read

theorem decode_payload (decoded : Payload.decode type config = .ok p) : payload type config = .ok (.ok p) := by
  have named := (Payload.decode_sound decoded).1
  simp [payload, ActionType.ofJson_exact.mpr named, decoded]

section
variable (calm : e.stalled = [])
include calm

theorem context_absent : context? e s user = .ok none ↔ s.user? user = none := by
  unfold context?
  rw [Engine.reach_calm calm]
  cases s.user? user with
  | none => simp
  | some facts => simp [map_ok]

theorem context_seen : context? e s user = .ok (some context) ↔ ∃ facts, s.user? user = some facts ∧
    Context.build facts e.now e.config.lowBalanceThreshold = .ok context := by
  unfold context?
  rw [Engine.reach_calm calm]
  cases s.user? user with
  | none => simp
  | some facts => simp [map_ok]

end

theorem fits_exact (calm : turn.engine.stalled = []) : fits s conditions turn = true ↔
    ∃ facts context, s.user? turn.user = some facts ∧
      Context.build facts turn.engine.now turn.engine.config.lowBalanceThreshold = .ok context ∧
      Condition.evaluate context conditions = .ok true := by
  have met (verdict : Except Fault Bool) : verdict.toOption = some true ↔ verdict = .ok true := by
    cases verdict <;> simp [Except.toOption]
  unfold fits
  constructor
  · intro fit
    split at fit
    · rename_i context seen
      obtain ⟨facts, known, built⟩ := (context_seen calm).mp seen
      exact ⟨facts, context, known, built, (met _).mp (of_decide_eq_true fit)⟩
    · cases fit
  · rintro ⟨facts, context, known, built, holds⟩
    rw [(context_seen calm).mpr ⟨facts, known, built⟩]
    exact decide_eq_true ((met _).mpr holds)

theorem manual_handled (read : payload type config = .ok (.ok p)) :
    manual turn.engine s d type config conditions turn.user log = .ok (o, after) ↔
      ∃ made, Handled s d conditions p log turn o made ∧ after = log ++ made := by
  rw [manual, read]
  constructor
  · intro done
    cases seen : context? turn.engine s turn.user with
    | error f => simp [seen] at done
    | ok context? =>
      cases context? with
      | none =>
        simp only [seen] at done
        cases done
        exact ⟨[], .unknown seen, (List.append_nil log).symm⟩
      | some context =>
        cases decided : Condition.evaluate context conditions with
        | error f => simp [seen, decided] at done
        | ok verdict =>
          cases verdict with
          | false =>
            simp only [seen, decided] at done
            cases done
            exact ⟨[], .unmet seen decided, (List.append_nil log).symm⟩
          | true =>
            simp only [seen, decided] at done
            cases done
            exact ⟨_, .given seen decided, rfl⟩
  · rintro ⟨made, handled, rfl⟩
    cases handled with
    | unknown absent => simp [absent]
    | unmet seen fails => simp [seen, fails]
    | given seen holds => simp [seen, holds, deliver]

theorem each_proceeds (read : payload type config = .ok (.ok p)) :
    each s d type config conditions turns b log = .ok (done, after) ↔ ∃ dealings calls,
      Proceeds s d conditions p log turns dealings calls ∧ after = log ++ calls ∧
        done = b.countAll dealings.entries := by
  induction turns generalizing b log with
  | nil =>
    constructor
    · intro ended
      cases ended
      exact ⟨[], [], .nil, (List.append_nil _).symm, rfl⟩
    · rintro ⟨dealings, calls, run, rfl, rfl⟩
      cases run
      rw [List.append_nil]
      rfl
  | cons turn rest ih =>
    rw [each]
    constructor
    · intro ended
      cases met : manual turn.engine s d type config conditions turn.user log with
      | error f => simp [met] at ended
      | ok found =>
        obtain ⟨o, next⟩ := found
        obtain ⟨made, handled, rfl⟩ := (manual_handled read).mp met
        rw [met] at ended
        obtain ⟨dealings, calls, later, rfl, rfl⟩ := ih.mp ended
        exact ⟨_, _, .cons handled later, List.append_assoc _ _ _, rfl⟩
    · rintro ⟨dealings, calls, run, rfl, rfl⟩
      cases run with
      | cons handled later =>
        rw [(manual_handled read).mpr ⟨_, handled, rfl⟩]
        exact ih.mpr ⟨_, _, later, (List.append_assoc _ _ _).symm, rfl⟩

theorem each_refused (refused : payload type config = .ok (.error message)) (turns : List Turn) (b : Bulk)
    (log : List Attempt) : each s d type config conditions turns b log =
      .ok (b.countAll (turns.map fun turn => (turn.user, .failed message)), log) := by
  induction turns generalizing b with
  | nil => rfl
  | cons turn rest ih =>
    have told : manual turn.engine s d type config conditions turn.user log = .ok (.failed message, log) := by
      simp [manual, refused]
    rw [each, told]
    exact ih (b.count turn.user (.failed message))

theorem each_fault (fault : payload type config = .error f) (some : turns ≠ []) :
    each s d type config conditions turns b log = .error f := by
  obtain ⟨turn, rest, rfl⟩ := List.exists_cons_of_ne_nil some
  simp [each, manual, fault]

section
variable {dealings : Dealings} {calls : List Attempt}

theorem handled_given (handled : Handled s d conditions p log turn o made) :
    fits s conditions turn = true ∧ o = outcomeOf (d log turn.user p) ∧
        made = [⟨turn.user, p, d log turn.user p⟩] ∨
      fits s conditions turn = false ∧ made = [] := by
  cases handled with
  | unknown absent => exact .inr ⟨by simp [fits, absent], rfl⟩
  | unmet seen fails => exact .inr ⟨by simp [fits, seen, fails, Except.toOption], rfl⟩
  | given seen holds => exact .inl ⟨by simp [fits, seen, holds, Except.toOption], rfl, rfl⟩

variable (run : Proceeds s d conditions p log turns dealings calls)
include run

theorem proceeds_turns : dealings.map Prod.fst = turns := by
  induction run with
  | nil => rfl
  | cons _ _ ih => rw [List.map_cons, ih]

theorem proceeds_calls : calls.map (·.user) = (turns.filter (fits s conditions)).map (·.user) ∧
    calls.map (fun c => outcomeOf c.answer) = (dealings.filter (fits s conditions ·.1)).map Prod.snd ∧
    ∀ c ∈ calls, c.payload = p := by
  induction run with
  | nil => exact ⟨rfl, rfl, List.forall_mem_nil _⟩
  | cons handled _ ih =>
    obtain ⟨called, outcomes, same⟩ := ih
    rcases handled_given handled with ⟨fit, rfl, rfl⟩ | ⟨unfit, rfl⟩
    · simpa [fit, called, outcomes] using same
    · simpa [unfit, called, outcomes] using same

theorem proceeds_answers (split : calls = before ++ c :: after) : c.answer = d (log ++ before) c.user c.payload := by
  induction run generalizing before with
  | nil => simp at split
  | cons handled _ ih =>
    rcases handled_given handled with ⟨_, _, rfl⟩ | ⟨_, rfl⟩
    · cases before with
      | nil =>
        cases split
        rw [List.append_nil]
      | cons first before =>
        rw [List.cons_append, List.nil_append, List.cons_append, List.cons.injEq] at split
        obtain ⟨rfl, split⟩ := split
        have later := ih split
        rwa [List.append_assoc] at later
    · have later := ih split
      rwa [List.append_nil] at later

theorem proceeds_left (calm : ∀ turn ∈ turns, turn.engine.stalled = []) (member : (turn, o) ∈ dealings) :
    (s.user? turn.user = none → o = .failed "User not found") ∧
      ((s.user? turn.user).isSome → fits s conditions turn = false → o = .unmet) := by
  induction run with
  | nil => cases member
  | cons handled _ ih =>
    obtain ⟨quiet, others⟩ := List.forall_mem_cons.mp calm
    rcases List.mem_cons.mp member with same | later
    · cases same
      cases handled with
      | unknown absent =>
        have missing := (context_absent quiet).mp absent
        simp [missing]
      | unmet seen fails =>
        obtain ⟨facts, known, _⟩ := (context_seen quiet).mp seen
        simp [known]
      | given seen holds =>
        obtain ⟨facts, known, _⟩ := (context_seen quiet).mp seen
        simp [known, fits, seen, holds, Except.toOption]
    · exact ih others later

end

theorem handled_answers (calm : turn.engine.stalled = []) (d : Dispatcher) (p : Payload) (log : List Attempt) :
    (∃ o made, Handled s d conditions p log turn o made) ↔ Answerable s conditions turn := by
  constructor
  · rintro ⟨o, made, handled⟩ facts known
    have seen : ∃ context verdict, context? turn.engine s turn.user = .ok (some context) ∧
        Condition.evaluate context conditions = .ok verdict := by
      cases handled with
      | unknown absent =>
        rw [(context_absent calm).mp absent] at known
        cases known
      | unmet seen fails => exact ⟨_, _, seen, fails⟩
      | given seen holds => exact ⟨_, _, seen, holds⟩
    obtain ⟨context, verdict, seen, decided⟩ := seen
    obtain ⟨found, held, built⟩ := (context_seen calm).mp seen
    rw [known] at held
    cases held
    exact ⟨context, verdict, built, decided⟩
  · intro answers
    cases known : s.user? turn.user with
    | none => exact ⟨_, _, .unknown ((context_absent calm).mpr known)⟩
    | some facts =>
      obtain ⟨context, verdict, built, decided⟩ := answers facts known
      have seen := (context_seen calm).mpr ⟨facts, known, built⟩
      cases verdict with
      | false => exact ⟨_, _, .unmet seen decided⟩
      | true => exact ⟨_, _, .given seen decided⟩

theorem proceeds_answered (calm : ∀ turn ∈ turns, turn.engine.stalled = []) (d : Dispatcher) (p : Payload)
    (log : List Attempt) :
    (∃ dealings calls, Proceeds s d conditions p log turns dealings calls) ↔
      ∀ turn ∈ turns, Answerable s conditions turn := by
  induction turns generalizing log with
  | nil => exact iff_of_true ⟨_, _, .nil⟩ nofun
  | cons turn rest ih =>
    obtain ⟨quiet, others⟩ := List.forall_mem_cons.mp calm
    rw [List.forall_mem_cons, ← handled_answers quiet d p log]
    constructor
    · rintro ⟨dealings, calls, run⟩
      cases run with
      | cons handled later => exact ⟨⟨_, _, handled⟩, (ih others _).mp ⟨_, _, later⟩⟩
    · rintro ⟨⟨o, made, handled⟩, answered⟩
      obtain ⟨dealings, calls, later⟩ := (ih others (log ++ made)).mpr answered
      exact ⟨_, _, .cons handled later⟩

def limitInForce (e : Engine) (limit : Json) : Json := if limit.kind = .null then e.config.actionBatchLimit else limit

theorem bulk_each {n : Nat} (some : users ≠ [])
    (bounded : (limitInForce e limit).toBound? = .ok (Option.some (n : Int))) :
    bulk e s d type config conditions users limit log =
      each s d type config conditions (e.turns (users.take n)) (.start (n < users.length)) log := by
  have filled : users.isEmpty = false := by simpa using some
  have number : (limitInForce e limit).number? = Option.some (.int n) := by
    cases found : limitInForce e limit <;> simp [found, Json.toBound?] at bounded
    all_goals simp [Json.number?, bounded]
  have compared : Json.compareWith ">" (fun x y => y.lt x) (.int (users.length : Int)) (limitInForce e limit) =
      .ok (decide (n < users.length)) := by
    have counted : (Json.int (users.length : Int)).number? = Option.some (.int users.length) := rfl
    simp only [Json.compareWith, number, counted, Number.lt_int, Int.ofNat_lt]
  unfold limitInForce at bounded compared
  simp only [bulk, filled, compared, bounded, takeBound_nat]
  rfl

theorem each_counts (ended : each s d type config conditions turns b log = .ok (done, after)) :
    ∃ entries : Entries, entries.map Prod.fst = turns.map (·.user) ∧ done = b.countAll entries := by
  induction turns generalizing b log with
  | nil =>
    cases ended
    exact ⟨[], rfl, rfl⟩
  | cons turn rest ih =>
    rw [each] at ended
    cases met : manual turn.engine s d type config conditions turn.user log with
    | error f => simp [met] at ended
    | ok found =>
      obtain ⟨o, next⟩ := found
      rw [met] at ended
      obtain ⟨entries, named, rfl⟩ := ih ended
      exact ⟨(turn.user, o) :: entries, congrArg (turn.user :: ·) named, rfl⟩

theorem started_tells (limitReached : Bool) (entries : Entries) :
    ((Bulk.start limitReached).countAll entries).Tells entries := Bulk.countAll_tells (Bulk.start_tells limitReached)

theorem each_returns (calm : ∀ turn ∈ turns, turn.engine.stalled = []) (b : Bulk) (log : List Attempt) :
    (∃ done after, each s d type config conditions turns b log = .ok (done, after)) ↔
      (∃ message, Refused type config message) ∨ turns = [] ∨
        (∃ p, Payload.decode type config = .ok p) ∧ ∀ turn ∈ turns, Answerable s conditions turn := by
  cases read : payload type config with
  | error f =>
    have unrefused : ¬∃ message, Refused type config message := by
      rintro ⟨message, refused⟩
      rw [payload_refused.mpr refused] at read
      cases read
    have unread : ¬∃ p, Payload.decode type config = .ok p := by
      rintro ⟨p, decoded⟩
      rw [decode_payload decoded] at read
      cases read
    constructor
    · rintro ⟨done, after, ended⟩
      refine .inr (.inl ?_)
      by_contra some
      rw [each_fault read some] at ended
      cases ended
    · rintro (refused | rfl | ⟨decoded, _⟩)
      · exact absurd refused unrefused
      · exact ⟨b, log, rfl⟩
      · exact absurd decoded unread
  | ok told =>
    cases told with
    | error message => exact iff_of_true ⟨_, _, each_refused read turns b log⟩ (.inl ⟨message, payload_refused.mp read⟩)
    | ok p =>
      have unrefused : ¬∃ message, Refused type config message := by
        rintro ⟨message, refused⟩
        rw [payload_refused.mpr refused] at read
        cases read
      have answered : (∃ dealings calls, Proceeds s d conditions p log turns dealings calls) ↔
          ∀ turn ∈ turns, Answerable s conditions turn := proceeds_answered calm d p log
      constructor
      · rintro ⟨done, after, ended⟩
        obtain ⟨dealings, calls, run, _⟩ := (each_proceeds read).mp ended
        exact .inr (.inr ⟨⟨p, payload_read read⟩, answered.mp ⟨dealings, calls, run⟩⟩)
      · intro returns
        have answers : ∀ turn ∈ turns, Answerable s conditions turn := by
          rcases returns with refused | rfl | ⟨_, answers⟩
          · exact absurd refused unrefused
          · exact nofun
          · exact answers
        obtain ⟨dealings, calls, run⟩ := answered.mpr answers
        exact ⟨_, _, (each_proceeds read).mpr ⟨dealings, calls, run, rfl, rfl⟩⟩

-- How an action is accounted for, turn by turn: at which of them it is handed over to the
-- dispatcher and with what answer, and what becomes of the others.
structure Accounted (s : Store) (d : Dispatcher) (conditions : List Condition) (type config : Json)
    (log : List Attempt) (turns : List Turn) (dealings : Dealings) (calls : List Attempt) : Prop where
  named : dealings.map Prod.fst = turns
  called : calls.map (·.user) = (turns.filter (fits s conditions)).map (·.user)
  payloads : ∀ c ∈ calls, Payload.decode type config = .ok c.payload
  answers : ∀ before c later, calls = before ++ c :: later → c.answer = d (log ++ before) c.user c.payload
  outcomes : (dealings.filter (fits s conditions ·.1)).map Prod.snd = calls.map fun c => outcomeOf c.answer
  unknown : ∀ turn o, (turn, o) ∈ dealings → s.user? turn.user = none → o = .failed "User not found"
  unmet : ∀ turn o, (turn, o) ∈ dealings → (s.user? turn.user).isSome → fits s conditions turn = false → o = .unmet

theorem each_accounted (calm : ∀ turn ∈ turns, turn.engine.stalled = [])
    (unrefused : ∀ message, ¬ Refused type config message)
    (ended : each s d type config conditions turns b log = .ok (done, after)) :
    ∃ dealings calls, after = log ++ calls ∧ done = b.countAll dealings.entries ∧
      Accounted s d conditions type config log turns dealings calls := by
  cases read : payload type config with
  | error f =>
    -- Only where there is nobody does such a fault stay out of sight.
    have nobody : turns = [] := by
      by_contra some
      rw [each_fault read some] at ended
      cases ended
    subst nobody
    cases ended
    refine ⟨[], [], (List.append_nil log).symm, rfl, rfl, rfl, List.forall_mem_nil _, ?_, rfl, nofun, nofun⟩
    intro before c later split
    simp at split
  | ok outcome =>
    cases outcome with
    | error message => exact absurd (payload_refused.mp read) (unrefused message)
    | ok p =>
      obtain ⟨dealings, calls, run, rfl, rfl⟩ := (each_proceeds read).mp ended
      obtain ⟨called, outcomes, same⟩ := proceeds_calls run
      refine ⟨dealings, calls, rfl, rfl, proceeds_turns run, called, ?_, ?_, outcomes.symm, ?_, ?_⟩
      · intro c member
        rw [same c member, payload_read read]
      · exact fun _ _ _ => proceeds_answers run
      · exact fun _ _ member => (proceeds_left run calm member).1
      · exact fun _ _ member => (proceeds_left run calm member).2

-- A refused action fails for everyone and nothing is handed over. Any other is handed over
-- for those who fit, and the tallies account for everyone who is processed. It comes to an
-- end unless a context or a condition does not.
theorem bulk_accounts {n : Nat} (calm : e.stalled = []) (some : users ≠ [])
    (bounded : (limitInForce e limit).toBound? = .ok (Option.some (n : Int))) :
    (∀ message, Refused type config message → ∃ b,
      bulk e s d type config conditions users limit log = .ok (b, log) ∧ b.failed = min n users.length ∧
        b.Tells ((users.take n).map fun user => (user, .failed message))) ∧
    (∀ b after, bulk e s d type config conditions users limit log = .ok (b, after) →
      (b.limitReached = true ↔ n < users.length) ∧ b.processed = min n users.length ∧
      b.processed = b.succeeded + b.failed + b.skipped ∧
      (∀ user, user ∈ b.results.map Prod.fst ↔ user ∈ users.take n) ∧
      ((∀ message, ¬ Refused type config message) → ∃ dealings calls, after = log ++ calls ∧
        b.Tells dealings.entries ∧
        Accounted s d conditions type config log (e.turns (users.take n)) dealings calls)) ∧
    ((∃ b after, bulk e s d type config conditions users limit log = .ok (b, after)) ↔
      (∃ message, Refused type config message) ∨ users.take n = [] ∨
        (∃ p, Payload.decode type config = .ok p) ∧
          ∀ turn ∈ e.turns (users.take n), Answerable s conditions turn) := by
  have quiet : ∀ turn ∈ e.turns (users.take n), turn.engine.stalled = [] := by
    intro turn member
    obtain ⟨readings, same⟩ := Engine.turns_engine member
    rw [same]
    exact calm
  have nobody : e.turns (users.take n) = [] ↔ users.take n = [] := by
    rw [← List.length_eq_zero_iff, Engine.turns_length, List.length_eq_zero_iff]
  rw [bulk_each some bounded, ← nobody]
  refine ⟨?_, ?_, each_returns quiet _ _⟩
  · intro message refused
    have told : (e.turns (users.take n)).map (fun turn => (turn.user, Outcome.failed message)) =
        (users.take n).map fun user => (user, .failed message) := by
      rw [← Engine.turns_users e (users.take n), List.map_map, Engine.turns_users]
      rfl
    refine ⟨_, each_refused (payload_refused.mpr refused) _ _ _, ?_, ?_⟩
    · rw [(started_tells _ _).failed, List.countP_map]
      simp [Outcome.failed, Function.comp_def, Engine.turns_length]
    · rw [told]
      exact started_tells _ _
  · intro b after ended
    obtain ⟨entries, named, counted⟩ := each_counts ended
    rw [Engine.turns_users] at named
    have told : b.Tells entries := counted ▸ started_tells _ _
    have marked : b.limitReached = decide (n < users.length) := by
      rw [counted, Bulk.countAll_limitReached]
      rfl
    have length : entries.length = min n users.length := by
      rw [← List.length_map, named, List.length_take]
    refine ⟨by simp [marked], told.processed.trans length, told.total, fun user => named ▸ told.users user, ?_⟩
    intro unrefused
    obtain ⟨dealings, calls, grown, rfl, accounted⟩ := each_accounted quiet unrefused ended
    exact ⟨dealings, calls, grown, started_tells _ _, accounted⟩

def moody : Dispatcher := fun log _ _ => if log.isEmpty then .raised "unavailable" else .outcome .done

theorem bulk_accounts_moody :
    let conditions : List Condition := [⟨⟨.text "user_tags", .text "EXISTS", ""⟩, 0⟩]
    let users := ["u", "x", "u", "u"]
    let type := Json.text "TAG_USER"
    let config := Json.record [("tag", .text "vip")]
    let store := Engine.oneWay "ab" "b"
    Engine.standard.stalled = [] ∧ users ≠ [] ∧ (limitInForce .standard (.int 3)).toBound? = .ok (some ((3 : Nat) : Int)) ∧
      (∀ message, ¬ Refused type config message) ∧
      ∃ b after, bulk .standard store moody type config conditions users (.int 3) [] = .ok (b, after) ∧
        b.results = [("u", .done), ("x", .failed "User not found")] ∧ b.limitReached = true ∧
        b.processed = b.succeeded + b.failed + b.skipped ∧
        ∃ dealings calls, after = [] ++ calls ∧ b.Tells dealings.entries ∧
          Accounted store moody conditions type config [] (Engine.standard.turns ["u", "x", "u"]) dealings calls := by
  intro conditions users type config store
  have bounded : (limitInForce .standard (.int 3)).toBound? = .ok (some ((3 : Nat) : Int)) := rfl
  have filled : users ≠ [] := List.cons_ne_nil _ _
  have decoded : Payload.decode type config = .ok (.tag "vip") := rfl
  have unrefused : ∀ message, ¬ Refused type config message := by
    intro message refused
    rw [← payload_refused, decode_payload decoded] at refused
    cases refused
  have returned : bulk .standard store moody type config conditions users (.int 3) [] =
      .ok (⟨3, 1, 2, 0, true, [("u", .done), ("x", .failed "User not found")]⟩,
        [⟨"u", .tag "vip", .raised "unavailable"⟩, ⟨"u", .tag "vip", .outcome .done⟩]) := by
    obtain ⟨context, built⟩ : ∃ context, Context.build Engine.walker ⟨0, 0⟩ Config.defaultThreshold = .ok context :=
      ⟨_, rfl⟩
    have seen : context? .standard store "u" = .ok (some context) := (context_seen rfl).mpr ⟨Engine.walker, rfl, built⟩
    have holds : Condition.evaluate context conditions = .ok true := rfl
    rw [bulk_each filled bounded, each_proceeds (decode_payload decoded)]
    exact ⟨_, _, .cons (.given seen holds) (.cons (.unknown rfl) (.cons (.given seen holds) .nil)), rfl, rfl⟩
  obtain ⟨_, _, total, _, accounted⟩ := (bulk_accounts rfl filled bounded).2.1 _ _ returned
  exact ⟨rfl, filled, bounded, unrefused, _, _, returned, rfl, rfl, total, accounted unrefused⟩

end Dispatch
end Lifecycle
