import Aimx.Config.Schema

/-!
# Callers and authorization

The peer of a request on the daemon's socket, the error codes of the wire protocol, and the
ownership check shared by SEND, MARK, HOOK-CREATE, HOOK-DELETE and MAILBOX-DELETE.

* `enforceMailboxOwnerOrRoot` — root passes, everybody else has to own the mailbox;
* `enforceMailboxOwnerOrRoot_eq_ok_iff` — exactly who passes.
-/

namespace Aimx
namespace Daemon

open Text

/-- The error codes of the wire protocol. -/
inductive ErrCode
  | mailbox
  | domain
  | sign
  | delivery
  | temp
  | malformed
  | protocol
  | notFound
  | io
  | validation
  | nonEmpty
  | conflict
  | eaccess
  | enoent
  | bodyTooLarge
  deriving DecidableEq

/-- A refusal: a stable code and a reason. -/
structure Reject where
  code : ErrCode
  reason : Str
  deriving DecidableEq

/-- The peer of a connection: its uid, and the name that the user database has for it. -/
structure Caller where
  uid : UInt32
  passwdName : Option Str
  deriving DecidableEq

/-- `Caller::is_root`. -/
def Caller.isRoot (caller : Caller) : Bool := caller.uid == 0

/-- `Caller::username`: root is not looked up. -/
def Caller.username (caller : Caller) : Option Str :=
  if caller.uid = 0 then some "root".toList else caller.passwdName

/-- `peer_username`, with the text of the error for a uid without an entry. -/
def Caller.peerUsername (caller : Caller) : Except Str Str :=
  match caller.username with
  | some name => .ok name
  | none => .error ("uid ".toList ++ (toString caller.uid.toNat).toList ++
      " has no passwd entry".toList)

/-- Whether a caller that is let through owns the mailbox or is root. -/
inductive AuthzDecision
  | accept
  | rootBypass
  deriving DecidableEq

/-- `require_mailbox_owner_or_root`. -/
def requireMailboxOwnerOrRoot (caller : Caller) (mailboxName : Str) (mailbox : MailboxConfig) :
    Except Reject AuthzDecision :=
  if caller.isRoot then .ok .rootBypass
  else
    match caller.username with
    | none =>
        .error ⟨.eaccess, "caller uid ".toList ++ (toString caller.uid.toNat).toList ++
          " has no resolvable username; cannot authorize against mailbox '".toList ++
          mailboxName ++ "'".toList⟩
    | some callerName =>
        if callerName = mailbox.owner then .ok .accept
        else
          .error ⟨.eaccess, "caller '".toList ++ callerName ++
            "' is not the owner of mailbox '".toList ++ mailboxName ++ "' (owner: '".toList ++
            mailbox.owner ++ "')".toList⟩

/-- `enforce_mailbox_owner_or_root`: the reason that goes over the wire is opaque. -/
def enforceMailboxOwnerOrRoot (caller : Caller) (mailboxName : Str) (mailbox : MailboxConfig) :
    Except Reject Unit :=
  match requireMailboxOwnerOrRoot caller mailboxName mailbox with
  | .ok _ => .ok ()
  | .error reject => .error ⟨reject.code, "not authorized".toList⟩

/-- A caller that may act for a mailbox: root, or the user that the mailbox belongs to. -/
def Caller.MayActFor (caller : Caller) (mailbox : MailboxConfig) : Prop :=
  caller.isRoot = true ∨ caller.username = some mailbox.owner

instance (caller : Caller) (mailbox : MailboxConfig) : Decidable (caller.MayActFor mailbox) :=
  inferInstanceAs (Decidable (_ ∨ _))

/-- Exactly the callers that may act for the mailbox pass the check. -/
theorem enforceMailboxOwnerOrRoot_eq_ok_iff {caller : Caller} {name : Str}
    {mailbox : MailboxConfig} :
    enforceMailboxOwnerOrRoot caller name mailbox = .ok () ↔ caller.MayActFor mailbox := by
  unfold enforceMailboxOwnerOrRoot requireMailboxOwnerOrRoot Caller.MayActFor
  by_cases hroot : caller.isRoot = true
  · rw [if_pos hroot]
    simp only [hroot, true_or]
  · rw [if_neg hroot]
    cases huser : caller.username with
    | none => simp only [hroot, reduceCtorEq, or_self]
    | some callerName =>
        dsimp only
        by_cases howner : callerName = mailbox.owner
        · rw [if_pos howner]
          simp only [howner, or_true]
        · rw [if_neg howner]
          simp only [hroot, Option.some.injEq, howner, reduceCtorEq, or_self]

end Daemon
end Aimx
