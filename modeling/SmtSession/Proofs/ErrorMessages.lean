import Mathlib.Data.List.DropRight
import SmtSession.Proofs.Calls
import SmtSession.Proofs.Rendering
import SmtSession.Proofs.ReplyStream
import SmtSession.Proofs.Waiting
import SmtSession.Rehearsal.StandIn

namespace SmtSession

namespace StringLiteral

variable {cs : List Char}

def quoted (cs : List Char) : List Char := '"' :: doubleQuotes cs ++ ['"']

/-- The text without the quotes at its two ends. -/
def unframed (cs : List Char) : List Char :=
  (cs.dropWhile (· == '"')).rdropWhile (· == '"')

theorem doubleQuotes_cons (c : Char) (rest : List Char) :
    doubleQuotes (c :: rest) = (if c = '"' then ['"', '"'] else [c]) ++ doubleQuotes rest := rfl

theorem dropWhile_doubleQuotes (cs : List Char) :
    (doubleQuotes cs).dropWhile (· == '"') = doubleQuotes (cs.dropWhile (· == '"')) := by
  induction cs with
  | nil => rfl
  | cons c rest ih =>
    by_cases quote : c = '"'
    · simp [doubleQuotes_cons, quote, ih]
    · simp [doubleQuotes_cons, quote]

theorem reverse_doubleQuotes (cs : List Char) :
    (doubleQuotes cs).reverse = doubleQuotes cs.reverse := by
  simp only [doubleQuotes, List.reverse_flatMap]
  congr 1
  funext c
  by_cases quote : c = '"' <;> simp [quote]

theorem unframed_doubleQuotes (cs : List Char) :
    unframed (doubleQuotes cs) = doubleQuotes (unframed cs) := by
  simp only [unframed, List.rdropWhile, dropWhile_doubleQuotes, reverse_doubleQuotes]

theorem unframed_framed (cs : List Char) : unframed ('"' :: cs ++ ['"']) = unframed cs := by
  have first : ('"' :: cs ++ ['"']).dropWhile (· == '"') = (cs ++ ['"']).dropWhile (· == '"') :=
    List.dropWhile_cons_of_pos rfl
  rw [unframed, unframed, first, List.dropWhile_append]
  split
  · rename_i nothing
    rw [List.isEmpty_iff.mp nothing]
    rfl
  · exact List.rdropWhile_concat_pos _ _ '"' rfl

theorem unframed_idempotent (cs : List Char) : unframed (unframed cs) = unframed cs := by
  have begun : (unframed cs).dropWhile (· == '"') = unframed cs := by
    obtain ⟨lost, whole⟩ := List.rdropWhile_prefix (· == '"') (cs.dropWhile (· == '"'))
    have first := List.head?_dropWhile_not (· == '"') cs
    rw [← whole] at first
    rw [unframed]
    cases kept : (cs.dropWhile (· == '"')).rdropWhile (· == '"') with
    | nil => rfl
    | cons c rest =>
      rw [kept] at first
      exact List.dropWhile_cons_of_neg (by simpa using first)
  rw [unframed, begun]
  exact List.rdropWhile_idempotent _ _

theorem mem_doubleQuotes (c : Char) : c ∈ doubleQuotes cs ↔ c ∈ cs := by
  simp only [doubleQuotes, List.mem_flatMap]
  constructor
  · rintro ⟨other, member, same⟩
    split at same <;> simp_all
  · intro member
    refine ⟨c, member, ?_⟩
    split <;> simp_all

theorem length_doubleQuotes (cs : List Char) :
    (doubleQuotes cs).length = cs.length + cs.count '"' := by
  induction cs with
  | nil => rfl
  | cons c rest ih =>
    by_cases quote : c = '"'
    · simp [doubleQuotes_cons, quote, ih]
      omega
    · simp [doubleQuotes_cons, quote, ih]
      omega

theorem doubleQuotes_eq_self_iff : doubleQuotes cs = cs ↔ '"' ∉ cs := by
  constructor
  · intro same
    have lengths := congrArg List.length same
    rw [length_doubleQuotes] at lengths
    exact List.count_eq_zero.mp (by omega)
  · intro plain
    induction cs with
    | nil => rfl
    | cons c rest ih =>
      obtain ⟨other, later⟩ := not_or.mp (mt List.mem_cons.mpr plain)
      rw [doubleQuotes_cons, if_neg (Ne.symm other), ih later]
      rfl

theorem unframed_eq_self (plain : '"' ∉ cs) : unframed cs = cs := by
  have other (c : Char) (member : c ∈ cs) : ¬(c == '"') = true := by
    intro same
    exact plain (beq_iff_eq.mp same ▸ member)
  have begun : cs.dropWhile (· == '"') = cs :=
    List.dropWhile_eq_self_iff.mpr fun _ => other _ (List.getElem_mem _)
  rw [unframed, begun]
  exact List.rdropWhile_eq_self_iff.mpr fun some => other _ (List.getLast_mem some)

/-- A text that loses the quotes at its ends, and has the others written twice, stays as it is only
if it has none. -/
theorem doubleQuotes_unframed_eq_self_iff : doubleQuotes (unframed cs) = cs ↔ '"' ∉ cs := by
  constructor
  · intro same
    -- A text that comes out as it went in has no quotes at its ends, since none are left there.
    have bare : unframed cs = cs :=
      calc unframed cs
          = unframed (doubleQuotes (unframed cs)) := by rw [same]
        _ = doubleQuotes (unframed (unframed cs)) := unframed_doubleQuotes _
        _ = cs := by rw [unframed_idempotent, same]
    rw [bare] at same
    exact doubleQuotes_eq_self_iff.mp same
  · intro plain
    rw [unframed_eq_self plain]
    exact doubleQuotes_eq_self_iff.mpr plain

end StringLiteral

def errorLine (message : String) : String :=
  String.ofList ('(' :: "error".toList ++ ' ' :: StringLiteral.quoted message.toList ++ [')'])

/-- What is heard of a message: it lacks the quotes at its ends, and has every other quote twice. -/
def heardMessage (message : String) : String :=
  String.ofList (StringLiteral.doubleQuotes (StringLiteral.unframed message.toList))

theorem heardMessage_eq_self_iff {message : String} :
    heardMessage message = message ↔ '"' ∉ message.toList := by
  rw [← StringLiteral.doubleQuotes_unframed_eq_self_iff, ← String.toList_inj, heardMessage,
    String.toList_ofList]

namespace ReplyReader

def errorItems (message : String) : List Sexp :=
  [.atom "error", .atom (String.ofList (StringLiteral.quoted message.toList))]

theorem withoutQuotes_eq (text : String) :
    ReplyEvent.withoutQuotes text = String.ofList (StringLiteral.unframed text.toList) := rfl

theorem ofSexp_errorItems (message : String) :
    ReplyEvent.ofSexp (.list (errorItems message)) = .ok (.solverError (heardMessage message)) := by
  have literal : StringLiteral.unframed (StringLiteral.quoted message.toList) =
      StringLiteral.doubleQuotes (StringLiteral.unframed message.toList) := by
    rw [StringLiteral.quoted, StringLiteral.unframed_framed, StringLiteral.unframed_doubleQuotes]
  have heard : ReplyEvent.withoutQuotes (String.ofList (StringLiteral.quoted message.toList)) =
      heardMessage message := by
    rw [withoutQuotes_eq, String.toList_ofList, literal, heardMessage]
  have text : (Sexp.atom (String.ofList (StringLiteral.quoted message.toList))).text =
      String.ofList (StringLiteral.quoted message.toList) := by
    rw [Sexp.text, Sexp.chars_atom, String.ofList_toList]
  rw [← heard, ← text]
  rfl

theorem toList_errorLine (message : String) : (errorLine message).toList =
    '(' :: "error".toList ++ ' ' :: StringLiteral.quoted message.toList ++ [')'] :=
  String.toList_ofList

theorem chars_errorItems (message : String) :
    (Sexp.list (errorItems message)).chars = (errorLine message).toList := by
  have literal : (Sexp.atom (String.ofList (StringLiteral.quoted message.toList))).chars =
      StringLiteral.quoted message.toList := by simp
  refine (Term.chars_application _ _).trans (Eq.trans ?_ (toList_errorLine message).symm)
  rw [List.flatMap_cons, List.flatMap_nil, List.append_nil, literal]

theorem everyAtom_errorItems (message : String) :
    Sexp.EveryAtom (Sexp.WellFormed ·.toList) (errorItems message) := by
  have word : Sexp.WellFormed "error".toList := .word (by decide)
  simp only [errorItems, Sexp.everyAtom_atom, String.toList_ofList, Sexp.everyAtom_nil, and_true]
  exact ⟨word, .string message.toList⟩

theorem layout_errorItems (message : String) :
    Sexp.ListLayout (errorItems message) (Text.joined [errorLine message]) := by
  have line : Text.joined [errorLine message] =
      (Sexp.list (errorItems message)).chars ++ ['\n'] := by
    rw [chars_errorItems, Text.joined_cons, Text.joined, List.flatMap_nil]
  rw [line]
  exact Sexp.listLayout_chars (everyAtom_errorItems message)

/-- An error answer is a list on one line, whatever its message holds. -/
theorem prints_errorLine {message : String} (oneLine : '\n' ∉ message.toList) :
    Prints [errorLine message] (some (.solverError (heardMessage message))) := by
  refine .tree (layout_errorItems message) ?_ (ofSexp_errorItems message)
  intro line member
  obtain rfl := List.mem_singleton.mp member
  rw [toList_errorLine]
  simp [StringLiteral.quoted, StringLiteral.mem_doubleQuotes, oneLine]

theorem feed_errorLine {message : String} (oneLine : '\n' ∉ message.toList) :
    feed (errorLine message) {} = (.ok (some (.solverError (heardMessage message))), {}) := by
  -- The line alone is a reply, so what it gives is all that the run over it gives.
  have given := results_piece (prints_errorLine oneLine)
  rw [results_cons] at given
  generalize feed (errorLine message) {} = fed at given ⊢
  simp only [results, List.length_singleton, Nat.sub_self, List.replicate_zero, List.nil_append,
    Prod.mk.injEq, List.cons.injEq, and_true] at given
  exact Prod.ext given.1 given.2

theorem signals_errorLine {message : String} (oneLine : '\n' ∉ message.toList) :
    (signals {} [errorLine message]).1 = [.error (heardMessage message)] := by
  simp [signals, feed_errorLine oneLine, signal?, ReplyEvent.signal]

end ReplyReader

/-- Every query that was asked has been answered, and nothing queued is meant for the next one. -/
structure Exchange.Answered (x : Exchange) : Prop where
  attended : x.attended = true
  receptive : x.closed = false
  level : x.delivered = x.issued
  queue : x.queue.find? (Envelope.decides x.issued) = none

/-- An error that is heard when a query has been asked ends the wait for the query. -/
theorem Exchange.Answered.wait {x : Exchange} (answered : x.Answered) (message : String)
    (timeout heartbeat : Duration) :
    ∃ after, (x.issueTicket.receiveAll [.error message]).wait x.issued timeout heartbeat =
      (.reply (.error message), after) := by
  obtain ⟨attended, receptive, level, queue⟩ := answered
  have heard : x.issueTicket.receiveAll [.error message] =
      x.issueTicket.deliver (.error message) := by
    simp [receiveAll, receive, issueTicket, attended, deliverError, hasOutstanding, level]
  have receiving : (x.issueTicket.deliver (.error message)).closed = false := receptive
  have first : (x.issueTicket.deliver (.error message)).queue.find? (Envelope.decides x.issued) =
      some (.reply x.issued (.error message)) := by
    simp [deliver, enqueue, issueTicket, queue, level, Envelope.decides]
  rw [heard]
  exact ⟨_, Prod.ext (wait_of_queued receiving first timeout heartbeat).1 rfl⟩

theorem Context.wait_of_exchange {ε : Type} {context : Context ε} {ticket : Nat}
    {result : WaitResult} {timeout heartbeat : Duration} {after : Exchange}
    (waited : context.exchange.wait ticket timeout heartbeat = (result, after)) :
    context.wait ticket timeout heartbeat = (result, { context with exchange := after }) := by
  simp only [wait, waited]

namespace Session

variable {β ε : Type} {session : Session β ε} {message : String}

theorem awaitOutcome_of_wait {ticket : Nat} {result : WaitResult} {outcome : Outcome}
    {context : Context ε} (live : session.state ≠ .destroyed)
    (pending : session.pending = some ⟨ticket, none⟩)
    (waited : session.context.wait ticket session.config.checkTimeout session.config.heartbeat =
      (result, context)) (told : outcomeOf result = .ok outcome) :
    session.awaitOutcome.1 = .ok outcome := by
  simp [awaitOutcome, live, pending, outcomeOfPending, waitForOutcome, waited, told]

variable [Emitter ε] {emitter : ε}

/-- A query that is answered at once has the next ticket, and the answer has been heard. -/
theorem sendQuery_answered {query : Command} {signals : List Signal}
    (answers : Emitter.send query session.context.emitter = (.ok signals, emitter)) :
    session.sendQuery query =
      (.ok session.context.exchange.issued, { session with
        context := { session.context with
          emitter, exchange := session.context.exchange.issueTicket.receiveAll signals } }) := by
  simp only [sendQuery, emit, Context.send, Context.issueTicket, answers]
  rfl

theorem fetchExternalModel_of_wait {ticket : Nat} {result : WaitResult} {asked : Session β ε}
    {context : Context ε} (sent : session.sendQuery .getModel = (.ok ticket, asked))
    (waited : asked.context.wait ticket asked.config.checkTimeout asked.config.heartbeat =
      (result, context)) :
    session.fetchExternalModel.1 = modelOf asked.config.checkTimeout result := by
  simp only [fetchExternalModel, sent, waited]

variable [Backend β]

/-- An error that answers a check is the reason of its outcome. -/
theorem check_of_error (idle : session.state = .idle) (external : session.mode = .external)
    (answered : session.context.exchange.Answered)
    (answers : Emitter.send .checkSat session.context.emitter = (.ok [.error message], emitter)) :
    session.check.1 = .ok (.unknown message) := by
  have ready := ensureIdle_ok.mpr idle
  obtain ⟨after, waited⟩ :=
    answered.wait message session.config.checkTimeout session.config.heartbeat
  simp only [check, submitCheck, ready, askBackend, external, sendQuery_answered answers]
  have live : SessionState.awaitingCheckResult ≠ .destroyed := by decide
  exact awaitOutcome_of_wait live rfl (Context.wait_of_exchange waited) rfl

theorem model_of_fetchExternalModel {err : SolverError} (idle : session.state = .idle)
    (external : session.mode = .external) (fresh : session.hasFreshSat = true)
    (refused : session.fetchExternalModel.1 = .error err) : session.model.1 = .error err := by
  have ready := ensureIdle_ok.mpr idle
  simp only [model, ready, fresh, fetchModel, external, refused, Except.map, ↓reduceIte]

/-- An error that answers the request for a model is part of the refusal. -/
theorem model_of_error (idle : session.state = .idle) (external : session.mode = .external)
    (answered : session.context.exchange.Answered) (fresh : session.hasFreshSat = true)
    (answers : Emitter.send .getModel session.context.emitter = (.ok [.error message], emitter)) :
    session.model.1 = .error (.process ("(get-model) rejected by the solver: " ++ message)) := by
  obtain ⟨after, waited⟩ :=
    answered.wait message session.config.checkTimeout session.config.heartbeat
  exact model_of_fetchExternalModel idle external fresh
    (fetchExternalModel_of_wait (sendQuery_answered answers) (Context.wait_of_exchange waited))

end Session

/-- An error answer is heard as its message exactly when the message holds no quote: what is heard
lacks the quotes at its ends, and has every other quote twice. A session reports what it has heard
as the reason why the outcome of a check is not known, or why there is no model. -/
theorem error_answer_heard {message : String} (oneLine : '\n' ∉ message.toList) :
    ReplyReader.feed (errorLine message) {} =
        (.ok (some (.solverError (heardMessage message))), {}) ∧
      (heardMessage message = message ↔ '"' ∉ message.toList) ∧
      ∀ {β ε : Type} [Backend β] [Emitter ε] (session : Session β ε) (emitter : ε),
        session.state = .idle → session.mode = .external → session.context.exchange.Answered →
        let heard := (ReplyReader.signals {} [errorLine message]).1
        (Emitter.send .checkSat session.context.emitter = (.ok heard, emitter) →
          session.check.1 = .ok (.unknown (heardMessage message))) ∧
        (session.hasFreshSat = true →
          Emitter.send .getModel session.context.emitter = (.ok heard, emitter) →
          session.model.1 = .error (.process
            ("(get-model) rejected by the solver: " ++ heardMessage message))) := by
  refine ⟨ReplyReader.feed_errorLine oneLine, heardMessage_eq_self_iff, ?_⟩
  intro β ε _ _ session emitter idle external answered heard
  have one : heard = [.error (heardMessage message)] := ReplyReader.signals_errorLine oneLine
  rw [one]
  exact ⟨fun answers => session.check_of_error idle external answered answers,
    fun fresh answers => session.model_of_error idle external answered fresh answers⟩

/-- A message that holds everything but quotes. -/
def plainMessage : String := "line 3: unknown constant |p; (q|)\\u\x7b41\x7d"

/-- A session whose last check was satisfied, over a solver that answers the next query with that
message. -/
def Session.refusing : Session Shadow Responder where
  config := quick
  options := []
  backend := some {}
  context := {
    emitter := { answers := [(ReplyReader.signals {} [errorLine plainMessage]).1] }
    exchange := {}
    origin := .channel }
  lastCheck := some (0, .sat)

theorem plainMessage_heard :
    '\n' ∉ plainMessage.toList ∧ '"' ∉ plainMessage.toList ∧
      (ReplyReader.feed (errorLine plainMessage) {}).1 = .ok (some (.solverError plainMessage)) ∧
      Session.refusing.check.1 = .ok (.unknown plainMessage) ∧
      Session.refusing.model.1 =
        .error (.process ("(get-model) rejected by the solver: " ++ plainMessage)) := by
  have oneLine : '\n' ∉ plainMessage.toList := by decide
  have plain : '"' ∉ plainMessage.toList := by decide
  obtain ⟨fed, same, reported⟩ := error_answer_heard oneLine
  have answered : Session.refusing.context.exchange.Answered := ⟨rfl, rfl, rfl, rfl⟩
  have checked := (reported Session.refusing _ rfl rfl answered).1 rfl
  have modelled := (reported Session.refusing _ rfl rfl answered).2 rfl rfl
  rw [same.mpr plain] at fed checked modelled
  exact ⟨oneLine, plain, congrArg Prod.fst fed, checked, modelled⟩

/-- A solver that quotes a symbol is heard with the quotes written twice, or without them. -/
theorem quotes_heard_wrong :
    errorLine "say \"hi\" twice" = "(error \"say \"\"hi\"\" twice\")" ∧
      (ReplyReader.feed (errorLine "say \"hi\" twice") {}).1 =
        .ok (some (.solverError "say \"\"hi\"\" twice")) ∧
      (ReplyReader.feed (errorLine "\"hi\"") {}).1 = .ok (some (.solverError "hi")) ∧
      ¬∀ message : String, '\n' ∉ message.toList →
        (ReplyReader.feed (errorLine message) {}).1 = .ok (some (.solverError message)) := by
  have within : heardMessage "say \"hi\" twice" = "say \"\"hi\"\" twice" := by decide
  have around : heardMessage "\"hi\"" = "hi" := by decide
  have told (message : String) (oneLine : '\n' ∉ message.toList) :
      (ReplyReader.feed (errorLine message) {}).1 =
        .ok (some (.solverError (heardMessage message))) := by
    rw [ReplyReader.feed_errorLine oneLine]
  have first := told "say \"hi\" twice" (by decide)
  have bare := told "\"hi\"" (by decide)
  rw [within] at first
  rw [around] at bare
  refine ⟨by decide, first, bare, ?_⟩
  intro kept
  have whole := bare.symm.trans (kept "\"hi\"" (by decide))
  injection whole with event
  injection event with signal
  injection signal with message
  exact absurd message (by decide)

end SmtSession
