import Aimx.Send.Handler

/-!
# Delivery to the mail exchangers

The transport of a SEND request looks up the mail exchangers of the recipient and tries one after the
other.  Name resolution, the parsing of addresses and the SMTP dialogue with one host are parameters.

* `deliverAcrossMx`, `lettreSend` — the functions of the source, with the hosts that were tried;
* `EndsAt`, `Exhausts` — the two ways in which the attempts end;
* `deliverAcrossMx_ends` — one of them is the case, for every list of hosts and all their answers.
-/

namespace Aimx
namespace Send

open Text

/-! ## One host after the other -/

/-- An attempt to deliver: the hosts that were tried, in their order, and the result. -/
structure MxRun where
  tried : List Str
  result : Except TransportError Str
  deriving DecidableEq

/-- `errors.join("; ")`. -/
def joinErrors : List Str → Str
  | [] => []
  | [e] => e
  | e :: errors => e ++ "; ".toList ++ joinErrors errors

/-- What `deliver_across_mx` returns behind its loop. -/
def exhausted (domain : Str) (errors : List Str) (sawPermanent : Bool) : TransportError :=
  let msg := "All MX servers for ".toList ++ domain ++ " unreachable: ".toList ++ joinErrors errors
  if sawPermanent then .permanent msg else .temp msg

/-- The loop of `deliver_across_mx`.  `deliver` is called with the number of the attempt, since the same
host may answer differently another time. -/
def deliverFrom (domain : Str) (deliver : Nat → Str → Except TransportError Str) :
    Nat → List Str → Bool → List Str → MxRun
  | _, errors, sawPermanent, [] => ⟨[], .error (exhausted domain errors sawPermanent)⟩
  | k, errors, sawPermanent, host :: hosts =>
      match deliver k host with
      | .ok server => ⟨[host], .ok server⟩
      | .error (.permanent e) =>
          let run := deliverFrom domain deliver (k + 1) (errors ++ [host ++ ": ".toList ++ e]) true hosts
          ⟨host :: run.tried, run.result⟩
      | .error (.temp e) =>
          let run :=
            deliverFrom domain deliver (k + 1) (errors ++ [host ++ ": ".toList ++ e]) sawPermanent hosts
          ⟨host :: run.tried, run.result⟩

def deliverAcrossMx (domain : Str) (mxHosts : List Str)
    (deliver : Nat → Str → Except TransportError Str) : MxRun :=
  deliverFrom domain deliver 0 [] false mxHosts

/-! ## The transport -/

/-- What the transport takes from elsewhere: the mail exchangers of a domain, the check on an address and
on an envelope, and the dialogue with a host. -/
structure MxNet where
  resolveMx : Str → Except Str (List Str)
  parseAddress : Str → Except Str Unit
  newEnvelope : Str → Str → Except Str Unit
  deliver : Nat → Str → Except TransportError Str

/-- The text behind the last opening bracket, without closing ones at its end. -/
def angleAddress (value : Str) : Str :=
  let tail := match rsplitOnce '<' value with
    | some (_, tail) => tail
    | none => value
  tail.rdropWhile (· == '>')

/-- `LettreTransport::extract_domain`. -/
def extractDomain (recipient : Str) : Except Str Str :=
  match ((angleAddress recipient).splitOn '@')[1]? with
  | some domain => .ok domain
  | none => .error ("Invalid recipient address: ".toList ++ recipient)

/-- `LettreTransport::send` up to the first host: the domain and its mail exchangers. -/
def mxHosts (net : MxNet) (sender recipient : Str) : Except TransportError (Str × List Str) :=
  match extractDomain recipient with
  | .error e => .error (.permanent e)
  | .ok domain =>
      match net.resolveMx domain with
      | .error e => .error (.temp ("DNS failure for ".toList ++ domain ++ ": ".toList ++ e))
      | .ok hosts =>
          match extractDomain sender with
          | .error e => .error (.permanent e)
          | .ok _ =>
              match net.parseAddress (angleAddress sender) with
              | .error e => .error (.permanent
                  ("Invalid sender address '".toList ++ sender ++ "': ".toList ++ e))
              | .ok _ =>
                  match net.parseAddress recipient with
                  | .error e => .error (.permanent
                      ("Invalid recipient address '".toList ++ recipient ++ "': ".toList ++ e))
                  | .ok _ =>
                      match net.newEnvelope (angleAddress sender) recipient with
                      | .error e => .error (.permanent ("Failed to create envelope: ".toList ++ e))
                      | .ok _ => .ok (domain, hosts)

/-- `LettreTransport::send`. -/
def lettreSend (net : MxNet) (sender recipient : Str) : MxRun :=
  match mxHosts net sender recipient with
  | .error e => ⟨[], .error e⟩
  | .ok (domain, hosts) => deliverAcrossMx domain hosts net.deliver

/-! ## How the attempts end -/

section Deliver

variable {domain : Str} {deliver : Nat → Str → Except TransportError Str} {hosts : List Str} {run : MxRun}

/-- The host of this number accepts. -/
def AcceptsAt (deliver : Nat → Str → Except TransportError Str) (hosts : List Str) (i : Nat) : Prop :=
  ∃ host server, hosts[i]? = some host ∧ deliver i host = .ok server

/-- The host of this number refuses for good. -/
def RefusesAt (deliver : Nat → Str → Except TransportError Str) (hosts : List Str) (i : Nat) : Prop :=
  ∃ host e, hosts[i]? = some host ∧ deliver i host = .error (.permanent e)

/-- The attempts end at a host that accepts, the first of them. -/
structure EndsAt (deliver : Nat → Str → Except TransportError Str) (hosts : List Str) (run : MxRun)
    (i : Nat) : Prop where
  accepts : AcceptsAt deliver hosts i
  first : ∀ j < i, ¬ AcceptsAt deliver hosts j
  tried : run.tried = hosts.take (i + 1)
  result : ∃ server, run.result = .ok server

/-- The attempts end behind the last host; the error is permanent when one of theirs was. -/
structure Exhausts (deliver : Nat → Str → Except TransportError Str) (hosts : List Str) (run : MxRun) :
    Prop where
  none : ∀ i, ¬ AcceptsAt deliver hosts i
  tried : run.tried = hosts
  result : (∃ i, RefusesAt deliver hosts i) ∧ (∃ e, run.result = .error (.permanent e)) ∨
    (∀ i, ¬ RefusesAt deliver hosts i) ∧ ∃ e, run.result = .error (.temp e)

theorem acceptsAt_succ {host : Str} {i : Nat} :
    AcceptsAt deliver (host :: hosts) (i + 1) ↔ AcceptsAt (fun i => deliver (i + 1)) hosts i := by
  unfold AcceptsAt
  rw [List.getElem?_cons_succ]

theorem refusesAt_succ {host : Str} {i : Nat} :
    RefusesAt deliver (host :: hosts) (i + 1) ↔ RefusesAt (fun i => deliver (i + 1)) hosts i := by
  unfold RefusesAt
  rw [List.getElem?_cons_succ]

/-- Counting the attempts from one or from nought is the same. -/
theorem deliverFrom_shift (hosts : List Str) (k : Nat) (errors : List Str) (sawPermanent : Bool) :
    deliverFrom domain deliver (k + 1) errors sawPermanent hosts =
      deliverFrom domain (fun i => deliver (i + 1)) k errors sawPermanent hosts := by
  induction hosts generalizing k errors sawPermanent with
  | nil => rfl
  | cons host hosts ih =>
      simp only [deliverFrom, ih]

/-- A host that does not accept is passed over. -/
theorem EndsAt.cons {host : Str} {result : Except TransportError Str} {tried : List Str} {i : Nat}
    (h : EndsAt (fun i => deliver (i + 1)) hosts ⟨tried, result⟩ i)
    (hhost : ∀ server, deliver 0 host ≠ .ok server) :
    EndsAt deliver (host :: hosts) ⟨host :: tried, result⟩ (i + 1) where
  accepts := acceptsAt_succ.mpr h.accepts
  first := by
    intro j hj
    cases j with
    | zero =>
        rintro ⟨host', server, hget, hok⟩
        cases hget
        exact hhost server hok
    | succ j => exact fun hacc => h.first j (by omega) (acceptsAt_succ.mp hacc)
  tried := by
    have htried : tried = hosts.take (i + 1) := h.tried
    rw [List.take_succ_cons, ← htried]
  result := h.result

/-- How the loop ends: at the first host that accepts, or behind the last one with an error that is
permanent when a permanent one was seen before or is seen now. -/
theorem deliverFrom_ends (hosts : List Str) (errors : List Str) (sawPermanent : Bool)
    (deliver : Nat → Str → Except TransportError Str) :
    (∃ i, EndsAt deliver hosts (deliverFrom domain deliver 0 errors sawPermanent hosts) i) ∨
      (∀ i, ¬ AcceptsAt deliver hosts i) ∧
        (deliverFrom domain deliver 0 errors sawPermanent hosts).tried = hosts ∧
        ((sawPermanent = true ∨ ∃ i, RefusesAt deliver hosts i) ∧
            (∃ e, (deliverFrom domain deliver 0 errors sawPermanent hosts).result =
              .error (.permanent e)) ∨
          (sawPermanent = false ∧ ∀ i, ¬ RefusesAt deliver hosts i) ∧
            ∃ e, (deliverFrom domain deliver 0 errors sawPermanent hosts).result = .error (.temp e)) := by
  induction hosts generalizing errors sawPermanent deliver with
  | nil =>
      right
      have hnone : ∀ (P : Str → Prop) (i : Nat), ¬ ∃ host, ([] : List Str)[i]? = some host ∧ P host := by
        simp
      refine ⟨fun i ⟨host, server, hget, _⟩ => hnone (fun _ => True) i ⟨host, hget, trivial⟩, rfl, ?_⟩
      cases sawPermanent with
      | true => exact Or.inl ⟨Or.inl rfl, _, rfl⟩
      | false =>
          exact Or.inr ⟨⟨rfl, fun i ⟨host, e, hget, _⟩ => hnone (fun _ => True) i ⟨host, hget, trivial⟩⟩,
            _, rfl⟩
  | cons host hosts ih =>
      -- the answers of the hosts behind the first one
      have hrest : ∀ i, (∀ server, deliver 0 host ≠ .ok server) →
          (∀ i, ¬ AcceptsAt (fun i => deliver (i + 1)) hosts i) → ¬ AcceptsAt deliver (host :: hosts) i := by
        intro i hhost hnone
        cases i with
        | zero =>
            rintro ⟨host', server, hget, hok⟩
            cases hget
            exact hhost server hok
        | succ i => exact fun hacc => hnone i (acceptsAt_succ.mp hacc)
      cases hanswer : deliver 0 host with
      | ok server =>
          left
          refine ⟨0, ⟨host, server, rfl, hanswer⟩, fun j hj => absurd hj (Nat.not_lt_zero j), ?_, server, ?_⟩
          · simp only [deliverFrom, hanswer, List.take_succ_cons, List.take_zero]
          · simp only [deliverFrom, hanswer]
      | error error =>
          have hhost : ∀ server, deliver 0 host ≠ .ok server := by
            intro server hok
            rw [hanswer] at hok
            cases hok
          cases error with
          | permanent e =>
              have hstep : deliverFrom domain deliver 0 errors sawPermanent (host :: hosts) =
                  ⟨host :: (deliverFrom domain (fun i => deliver (i + 1)) 0
                      (errors ++ [host ++ ": ".toList ++ e]) true hosts).tried,
                    (deliverFrom domain (fun i => deliver (i + 1)) 0
                      (errors ++ [host ++ ": ".toList ++ e]) true hosts).result⟩ := by
                rw [deliverFrom, hanswer, ← deliverFrom_shift hosts 0]
              rw [hstep]
              rcases ih (errors ++ [host ++ ": ".toList ++ e]) true (fun i => deliver (i + 1)) with
                ⟨i, hends⟩ | ⟨hnone, htried, hresult⟩
              · exact Or.inl ⟨i + 1, hends.cons hhost⟩
              · refine Or.inr ⟨fun i => hrest i hhost hnone, by rw [htried], Or.inl ⟨?_, ?_⟩⟩
                · exact Or.inr ⟨0, host, e, rfl, hanswer⟩
                · rcases hresult with ⟨-, hresult⟩ | ⟨⟨hsaw, -⟩, -⟩
                  · exact hresult
                  · cases hsaw
          | temp e =>
              have hstep : deliverFrom domain deliver 0 errors sawPermanent (host :: hosts) =
                  ⟨host :: (deliverFrom domain (fun i => deliver (i + 1)) 0
                      (errors ++ [host ++ ": ".toList ++ e]) sawPermanent hosts).tried,
                    (deliverFrom domain (fun i => deliver (i + 1)) 0
                      (errors ++ [host ++ ": ".toList ++ e]) sawPermanent hosts).result⟩ := by
                rw [deliverFrom, hanswer, ← deliverFrom_shift hosts 0]
              rw [hstep]
              rcases ih (errors ++ [host ++ ": ".toList ++ e]) sawPermanent (fun i => deliver (i + 1)) with
                ⟨i, hends⟩ | ⟨hnone, htried, hresult⟩
              · exact Or.inl ⟨i + 1, hends.cons hhost⟩
              · refine Or.inr ⟨fun i => hrest i hhost hnone, by rw [htried], ?_⟩
                rcases hresult with ⟨hsaw | ⟨i, hrefuses⟩, hresult⟩ | ⟨⟨hsaw, hnever⟩, hresult⟩
                · exact Or.inl ⟨Or.inl hsaw, hresult⟩
                · exact Or.inl ⟨Or.inr ⟨i + 1, refusesAt_succ.mpr hrefuses⟩, hresult⟩
                · refine Or.inr ⟨⟨hsaw, fun i => ?_⟩, hresult⟩
                  cases i with
                  | zero =>
                      rintro ⟨host', e', hget, herror⟩
                      cases hget
                      rw [hanswer] at herror
                      cases herror
                  | succ i => exact fun hrefuses => hnever i (refusesAt_succ.mp hrefuses)

/-- **The attempts.**  The hosts are tried in order; the first one that accepts is the last one tried,
and when none accepts, the error is permanent exactly when one of theirs was. -/
theorem deliverAcrossMx_ends (domain : Str) (hosts : List Str)
    (deliver : Nat → Str → Except TransportError Str) :
    (∃ i, EndsAt deliver hosts (deliverAcrossMx domain hosts deliver) i) ∨
      Exhausts deliver hosts (deliverAcrossMx domain hosts deliver) := by
  rcases @deliverFrom_ends domain hosts [] false deliver with hends | ⟨hnone, htried, hresult⟩
  · exact Or.inl hends
  · refine Or.inr ⟨hnone, htried, ?_⟩
    rcases hresult with ⟨hsaw | hrefuses, hresult⟩ | ⟨⟨-, hnever⟩, hresult⟩
    · cases hsaw
    · exact Or.inl ⟨hrefuses, hresult⟩
    · exact Or.inr ⟨hnever, hresult⟩

end Deliver

end Send
end Aimx
