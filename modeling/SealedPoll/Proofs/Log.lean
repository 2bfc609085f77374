import SealedPoll.Log
import SealedPoll.Proofs.Vote

/-!
# Telling log messages apart

The text of an event says its poll first, without quotation marks, and a poll may be called anything,
also by a piece of such a text. So a message is read from its end.

* `endingIn` : a number at the end of a text, after a blank, which can be told (`endingIn_inj`);
* `LogEvent.IsGenuine` : a cause that is reported is one that a vote can be refused for;
* `LogEvent.eq_of_message` : messages of one level tell their events.
-/

namespace SealedPoll

/-! ## Numbers at the end of a text -/

/-- A text, a blank and a number. -/
def endingIn (front : List Char) (n : Nat) : List Char := front ++ ' ' :: n.repr.toList

theorem isDigit_of_mem_repr {n : Nat} {c : Char} (h : c ∈ n.repr.toList) : c.isDigit = true := by
  rw [Nat.toList_repr] at h
  exact Nat.isDigit_of_mem_toDigits (by decide) (by decide) h

theorem eq_of_toList_repr {n m : Nat} (h : n.repr.toList = m.repr.toList) : n = m := by
  have hvalue := congrArg (fun digits => Nat.ofDigitChars 10 digits 0) h
  simpa [Nat.toList_repr, Nat.ofDigitChars_toDigits] using hvalue

/-- The digits are what can be taken from the end before the blank comes. -/
theorem takeWhile_reverse_endingIn (front : List Char) (n : Nat) :
    (endingIn front n).reverse.takeWhile Char.isDigit = n.repr.toList.reverse := by
  have hall : ∀ c ∈ n.repr.toList.reverse, c.isDigit = true := fun c hc =>
    isDigit_of_mem_repr (List.mem_reverse.1 hc)
  rw [endingIn, List.reverse_append, List.reverse_cons, List.append_assoc,
    List.takeWhile_append_of_pos hall]
  simp

theorem endingIn_inj {front front' : List Char} {n m : Nat} (h : endingIn front n = endingIn front' m) :
    front = front' ∧ n = m := by
  have hdigits := congrArg (fun text => text.reverse.takeWhile Char.isDigit) h
  simp only [takeWhile_reverse_endingIn, List.reverse_inj] at hdigits
  rw [endingIn, endingIn, hdigits] at h
  exact ⟨List.append_cancel_right h, eq_of_toList_repr hdigits⟩

theorem endingIn_ne {front text : List Char} {n : Nat} {c : Char} (hc : c.isDigit = false) :
    endingIn front n ≠ text ++ [c] := by
  intro h
  have hnone : (text ++ [c]).reverse.takeWhile Char.isDigit = [] := by simp [hc]
  rw [← h, takeWhile_reverse_endingIn, List.reverse_eq_nil_iff, Nat.toList_repr] at hnone
  exact Nat.toDigits_ne_nil hnone

namespace LogEvent

/-- The event is one that a service can report: a cause is a reason for which a poll's key refuses a
vote. -/
def IsGenuine : LogEvent → Prop
  | cause _ reason =>
    ∃ (secret : PollKey) (vote : Bytes), Vote.decrypt secret.bytes.toList vote = .error reason
  | started _ | stopped _ _ | undecryptable _ _ | cleared _ => True

/-! ## What a message ends in -/

theorem poll_append_predicate {event other : LogEvent} (h : event.message = other.message) :
    event.poll.toList ++ event.predicate.toList = other.poll.toList ++ other.predicate.toList := by
  have hlist := congrArg String.toList h
  simp only [message, String.toList_append, List.append_assoc] at hlist
  exact List.append_cancel_left hlist

theorem toList_stopped (id : String) (votes : Nat) :
    id.toList ++ (stopped id votes).predicate.toList =
      endingIn (id.toList ++ " stopped with".toList) votes ++ " votes".toList := by
  show id.toList ++ (" stopped with " ++ votes.repr ++ " votes").toList = _
  simp [endingIn]

theorem toList_undecryptable (id : String) (index : Nat) :
    id.toList ++ (undecryptable id index).predicate.toList =
      endingIn (id.toList ++ " stopped with undecryptable votes: pollcrypt: vote".toList) index ++
        " could not be decrypted".toList := by
  show id.toList ++ (" stopped with undecryptable votes: pollcrypt: vote " ++ index.repr ++
    " could not be decrypted").toList = _
  simp [endingIn]

/-- What every message about a cause says before the cause. -/
def causeMark : String := " decryption failure cause: pollcrypt: "

theorem toList_cause (id : String) (reason : Error) :
    id.toList ++ (cause id reason).predicate.toList =
      id.toList ++ causeMark.toList ++ reason.detail.toList := by
  have hpredicate : (cause id reason).predicate = " decryption failure cause: " ++ reason.message := rfl
  rw [hpredicate, Error.message, causeMark]
  generalize reason.detail = detail
  simp

theorem toList_detail_short (length : Nat) :
    (Error.ciphertextTooShort length).detail.toList =
      endingIn "ciphertext too short: need at least 60 bytes, got".toList length := by
  show ("ciphertext too short: need at least 60 bytes, got " ++ length.repr).toList = _
  simp [endingIn]

/-! ## Messages of different kinds -/

theorem message_started_ne_cleared (id id' : String) :
    (started id).message ≠ (cleared id').message := by
  intro h
  have htexts : id.toList ++ " started".toList = id'.toList ++ " cleared".toList :=
    poll_append_predicate h
  have hends := List.append_inj_right' htexts (by simp)
  simp at hends

theorem message_started_ne_stopped (id id' : String) (votes : Nat) :
    (started id).message ≠ (stopped id' votes).message := by
  intro h
  have htexts : id.toList ++ " started".toList =
      id'.toList ++ (stopped id' votes).predicate.toList := poll_append_predicate h
  rw [toList_stopped] at htexts
  simpa using congrArg List.getLast? htexts

theorem message_cleared_ne_stopped (id id' : String) (votes : Nat) :
    (cleared id).message ≠ (stopped id' votes).message := by
  intro h
  have htexts : id.toList ++ " cleared".toList =
      id'.toList ++ (stopped id' votes).predicate.toList := poll_append_predicate h
  rw [toList_stopped] at htexts
  simpa using congrArg List.getLast? htexts

theorem cause_append_detail {id id' : String} {reason reason' : Error}
    (h : (cause id reason).message = (cause id' reason').message) :
    id.toList ++ causeMark.toList ++ reason.detail.toList =
      id'.toList ++ causeMark.toList ++ reason'.detail.toList := by
  rw [← toList_cause, ← toList_cause]
  exact poll_append_predicate h

/-- A cause that does not end in a digit is not one that ends in a number. -/
theorem message_short_ne (id id' : String) (length : Nat) {reason : Error} {text : List Char} {c : Char}
    (hreason : reason.detail.toList = text ++ [c]) (hc : c.isDigit = false) :
    (cause id (.ciphertextTooShort length)).message ≠ (cause id' reason).message := by
  intro h
  have htexts := cause_append_detail h
  rw [toList_detail_short, endingIn, ← List.append_assoc, hreason, ← List.append_assoc] at htexts
  exact endingIn_ne hc htexts

theorem toList_detail_agreement : Error.keyAgreementFailure.detail.toList =
    "key agreement produced a non-contributory shared secre".toList ++ ['t'] := by
  show "key agreement produced a non-contributory shared secret".toList = _
  simp

theorem toList_detail_authentication : Error.authenticationFailed.detail.toList =
    "ciphertext failed authenticatio".toList ++ ['n'] := by
  show "ciphertext failed authentication".toList = _
  simp

theorem message_agreement_ne_authentication (id id' : String) :
    (cause id .keyAgreementFailure).message ≠ (cause id' .authenticationFailed).message := by
  intro h
  have htexts := cause_append_detail h
  rw [toList_detail_agreement, toList_detail_authentication] at htexts
  simpa using congrArg List.getLast? htexts

/-! ## What a message tells -/

theorem poll_eq_of_predicate {event other : LogEvent} (h : event.message = other.message)
    (hpredicate : event.predicate = other.predicate) : event.poll = other.poll := by
  have htexts := poll_append_predicate h
  rw [hpredicate] at htexts
  exact String.toList_inj.1 (List.append_cancel_right htexts)

theorem votes_eq_of_message {id id' : String} {votes votes' : Nat}
    (h : (stopped id votes).message = (stopped id' votes').message) : votes = votes' := by
  have htexts : id.toList ++ (stopped id votes).predicate.toList =
      id'.toList ++ (stopped id' votes').predicate.toList := poll_append_predicate h
  rw [toList_stopped, toList_stopped] at htexts
  exact (endingIn_inj (List.append_cancel_right htexts)).2

theorem index_eq_of_message {id id' : String} {index index' : Nat}
    (h : (undecryptable id index).message = (undecryptable id' index').message) : index = index' := by
  have htexts : id.toList ++ (undecryptable id index).predicate.toList =
      id'.toList ++ (undecryptable id' index').predicate.toList := poll_append_predicate h
  rw [toList_undecryptable, toList_undecryptable] at htexts
  exact (endingIn_inj (List.append_cancel_right htexts)).2

theorem length_eq_of_message {id id' : String} {length length' : Nat}
    (h : (cause id (.ciphertextTooShort length)).message =
      (cause id' (.ciphertextTooShort length')).message) : length = length' := by
  have htexts := cause_append_detail h
  rw [toList_detail_short, toList_detail_short, endingIn, endingIn, ← List.append_assoc,
    ← List.append_assoc] at htexts
  exact (endingIn_inj htexts).2

/-- The reasons for which a key refuses votes are told by their texts. -/
theorem reason_eq_of_message {id id' : String} {reason reason' : Error} {secret secret' : PollKey}
    {vote vote' : Bytes} (h : (cause id reason).message = (cause id' reason').message)
    (hreason : Vote.decrypt secret.bytes.toList vote = .error reason)
    (hreason' : Vote.decrypt secret'.bytes.toList vote' = .error reason') : reason = reason' := by
  rcases Vote.decrypt_eq_error hreason with rfl | rfl | rfl
  · rcases Vote.decrypt_eq_error hreason' with rfl | rfl | rfl
    · rw [length_eq_of_message h]
    · exact absurd h (message_short_ne id id' _ toList_detail_agreement rfl)
    · exact absurd h (message_short_ne id id' _ toList_detail_authentication rfl)
  · rcases Vote.decrypt_eq_error hreason' with rfl | rfl | rfl
    · exact absurd h.symm (message_short_ne id' id _ toList_detail_agreement rfl)
    · rfl
    · exact absurd h (message_agreement_ne_authentication id id')
  · rcases Vote.decrypt_eq_error hreason' with rfl | rfl | rfl
    · exact absurd h.symm (message_short_ne id' id _ toList_detail_authentication rfl)
    · exact absurd h.symm (message_agreement_ne_authentication id' id)
    · rfl

/-! ## One level after the other -/

theorem eq_of_info {event other : LogEvent} (hevent : event.level = .info) (hother : other.level = .info)
    (h : event.message = other.message) : event = other := by
  cases event with
  | undecryptable id index => cases hevent
  | cause id reason => cases hevent
  | started id =>
    cases other with
    | undecryptable id' index => cases hother
    | cause id' reason => cases hother
    | started id' => exact congrArg started (poll_eq_of_predicate h rfl)
    | stopped id' votes => exact absurd h (message_started_ne_stopped id id' votes)
    | cleared id' => exact absurd h (message_started_ne_cleared id id')
  | stopped id votes =>
    cases other with
    | undecryptable id' index => cases hother
    | cause id' reason => cases hother
    | started id' => exact absurd h.symm (message_started_ne_stopped id' id votes)
    | stopped id' votes' =>
      obtain rfl := votes_eq_of_message h
      exact congrArg (stopped · votes) (poll_eq_of_predicate h rfl)
    | cleared id' => exact absurd h.symm (message_cleared_ne_stopped id' id votes)
  | cleared id =>
    cases other with
    | undecryptable id' index => cases hother
    | cause id' reason => cases hother
    | started id' => exact absurd h.symm (message_started_ne_cleared id' id)
    | stopped id' votes => exact absurd h (message_cleared_ne_stopped id id' votes)
    | cleared id' => exact congrArg cleared (poll_eq_of_predicate h rfl)

theorem eq_of_warn {event other : LogEvent} (hevent : event.level = .warn) (hother : other.level = .warn)
    (h : event.message = other.message) : event = other := by
  cases event <;> cases hevent
  cases other <;> cases hother
  next id index id' index' =>
    obtain rfl := index_eq_of_message h
    exact congrArg (undecryptable · index) (poll_eq_of_predicate h rfl)

theorem eq_of_debug {event other : LogEvent} (hevent : event.level = .debug)
    (hother : other.level = .debug) (hgenuine : event.IsGenuine) (hgenuine' : other.IsGenuine)
    (h : event.message = other.message) : event = other := by
  cases event <;> cases hevent
  cases other <;> cases hother
  next id reason id' reason' =>
    obtain ⟨secret, vote, hreason⟩ := hgenuine
    obtain ⟨secret', vote', hreason'⟩ := hgenuine'
    obtain rfl := reason_eq_of_message h hreason hreason'
    exact congrArg (cause · reason) (poll_eq_of_predicate h rfl)

/-- Level and text determine the event. -/
theorem eq_of_message {event other : LogEvent} (hgenuine : event.IsGenuine)
    (hgenuine' : other.IsGenuine) (hlevel : event.level = other.level)
    (h : event.message = other.message) : event = other := by
  cases hevent : event.level with
  | warn => exact eq_of_warn hevent (hlevel ▸ hevent) h
  | info => exact eq_of_info hevent (hlevel ▸ hevent) h
  | debug => exact eq_of_debug hevent (hlevel ▸ hevent) hgenuine hgenuine' h

end LogEvent

end SealedPoll
