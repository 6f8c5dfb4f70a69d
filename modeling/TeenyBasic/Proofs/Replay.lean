import TeenyBasic.Proofs.Fragments
import TeenyBasic.Proofs.Pass.Books
import TeenyBasic.Proofs.Pass.Redirection

/-!
The emitter as a replay of calls. Calls are actions that check and record no name, so what is known of an
emitter after actions holds after any calls: their header lines and their body are kept apart, each in the
order of the calls. A run makes the same calls on every sink, so the C text of a source is the text of the
calls that a transcript of its run holds (`emitter_replays_every_run`).
-/

set_option autoImplicit false

namespace TeenyBasic

open Grammar

def Call.body? : Call → Option String
  | .emit text => some text
  | .line text => some (text ++ "\n")
  | .header _ => none

/-- The text that calls stand for: the lines for the header, and then what is written to the body. -/
def textOf (calls : List Call) : String :=
  String.join ((headerLines calls).map (· ++ "\n")) ++ String.join (calls.filterMap Call.body?)

namespace Grammar

theorem Account.performAll_write {σ : Type} [Sink σ] (account : Account σ) (calls : List Call) :
    account.performAll (calls.map .write) =
      .ok { account with sink := Sink.replay account.sink calls } := by
  induction calls generalizing account with
  | nil => rfl
  | cons call calls ih =>
    refine performAll_cons_eq_ok.mpr ⟨_, rfl, ?_⟩
    rw [ih]
    rfl

private theorem headerOf_write (declared : List String) (calls : List Call) :
    headerOf declared (calls.map .write) = headerLines calls := by
  induction calls with
  | nil => rfl
  | cons call calls ih =>
    cases call with
    | header text => exact congrArg (text :: ·) ih
    | emit | line => exact ih

private theorem bodyOf_write (calls : List Call) :
    bodyOf (calls.map .write) = String.join (calls.filterMap Call.body?) := by
  induction calls with
  | nil => rfl
  | cons call calls ih => cases call <;> simp [List.filterMap_cons, Call.body?, ih]

end Grammar

namespace Emitter

variable (calls : List Call)

private theorem header_replay :
    (Sink.replay ({} : Emitter) calls).header.toList = (headerLines calls).map (· ++ "\n") := by
  have header := Account.header_performAll (Account.performAll_write (State.initialAccount {}) calls)
  rw [headerOf_write] at header
  exact header

private theorem bodyText_replay :
    (Sink.replay ({} : Emitter) calls).bodyText = String.join (calls.filterMap Call.body?) := by
  have body := Account.bodyText_performAll (Account.performAll_write (State.initialAccount {}) calls)
  rw [bodyOf_write] at body
  exact body.trans (String.empty_append ..)

private theorem finish_replay : (Sink.replay ({} : Emitter) calls).finish = textOf calls := by
  rw [finish, headerText, header_replay, bodyText_replay, textOf]

example : (Sink.replay ({} : Emitter) [.emit "a = ", .header "float a;", .line "1;"]).finish =
    "float a;\na = 1;\n" := by
  decide +kernel

/-- The body is cut into lines where the calls end them. -/
theorem fragments_replay :
    (Sink.replay ({} : Emitter) calls).body.toList =
        (fragments "" (calls.map .write)).1.map (· ++ "\n") ∧
      (Sink.replay ({} : Emitter) calls).pending = (fragments "" (calls.map .write)).2 :=
  Account.fragments_performAll (Account.performAll_write (State.initialAccount ({} : Emitter)) calls)

end Emitter

private theorem Run.outcome_redirect {σ τ : Type} (change : σ → τ) (run : Run σ) :
    (run.redirect change).outcome = run.outcome.map change := by
  cases run <;> rfl

/-- An emitter holds the header lines of any calls made on it and the texts for the body, each in the
order of the calls, and at every moment the lines finished so far and the text of an unfinished one. A run
makes the same calls on any sink and ends in the same way: a source is accepted just when it is with a
transcript, its C text is then the text of the calls in the transcript, and it fails with the same failure
otherwise. -/
theorem emitter_replays_every_run :
    (∀ calls : List Call,
      (Sink.replay ({} : Emitter) calls).finish = textOf calls ∧
      ∀ count, ∃ emitter lines pending,
        emitter = Sink.replay ({} : Emitter) (calls.take count) ∧
        (lines, pending) = fragments "" ((calls.take count).map .write) ∧
        emitter.body.toList = lines.map (· ++ "\n") ∧ emitter.pending = pending ∧
        emitter.bodyText = String.join (lines.map (· ++ "\n")) ++ pending) ∧
    ∀ source : String,
      (compile source = (run ({} : Transcript) source).outcome.map
        fun transcript => textOf transcript.calls.toList) ∧
      ∀ (σ : Type) [Sink σ] (sink : σ), run sink source =
        (run ({} : Transcript) source).redirect
          fun transcript => Sink.replay sink transcript.calls.toList := by
  refine ⟨fun calls => ⟨Emitter.finish_replay calls, fun count => ?_⟩, fun source => ⟨?_, ?_⟩⟩
  · obtain ⟨body, pending⟩ := Emitter.fragments_replay (calls.take count)
    refine ⟨_, _, _, rfl, rfl, body, pending, ?_⟩
    rw [Emitter.bodyText, body, pending]
  · rw [compile, emission, run_eq_redirect_transcript, Run.outcome_redirect]
    cases (run ({} : Transcript) source).outcome with
    | error failure => rfl
    | ok transcript => exact congrArg Except.ok (Emitter.finish_replay _)
  · exact fun σ _ sink => run_eq_redirect_transcript sink source

end TeenyBasic
