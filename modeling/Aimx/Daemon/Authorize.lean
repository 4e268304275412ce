import Aimx.Config.Load
import Aimx.Daemon.Authz

/-!
# The two authorization predicates

`auth::authorize`, which compares the caller's uid with the uid that the owner's name resolves to, and
how it relates to `require_mailbox_owner_or_root`, which compares the owner's name with the name that
the caller's uid resolves to.  The user database is any pair of lookups.

* `authorize` — the predicate of the command line, the MCP server and the mailbox requests;
* `ownerUid_eq_ok_iff` — which owners resolve to a uid;
* `Corresponds` — the user database takes the owner to the caller exactly when it takes the caller to
  the owner;
* `authorize_agrees_iff` — the two predicates agree on exactly these.
-/

namespace Aimx
namespace Daemon

open Text

/-- The user database: users by name, and the name of a uid. -/
structure UserDb where
  resolveUser : Str → Option ResolvedUser
  nameOf : UInt32 → Option Str

/-- The caller with a uid. -/
def UserDb.caller (db : UserDb) (uid : UInt32) : Caller := ⟨uid, db.nameOf uid⟩

/-- `MailboxConfig::owner_uid`. -/
def UserDb.ownerUid (db : UserDb) (mailbox : MailboxConfig) : Except ConfigError UInt32 :=
  (ownerIds db.resolveUser mailbox.owner).map Prod.fst

/-- What a caller asks to do. -/
inductive Action
  | mailboxCreate (ownerUid : UInt32)
  | mailboxDelete (mailbox : Str)
  | mailboxRead (mailbox : Str)
  | mailboxSendAs (mailbox : Str)
  | markReadWrite (mailbox : Str)
  | hookCrud (mailbox : Str)
  | systemCommand
  deriving DecidableEq

/-- Why `authorize` refuses. -/
inductive AuthError
  | notRoot
  | notOwner (mailbox : Str)
  | ownerMismatch (intendedOwnerUid : UInt32)
  | noSuchMailbox
  deriving DecidableEq

/-- The mailbox that an owner-gated action is about. -/
def Action.ownerGated : Action → Option Str
  | .mailboxDelete name => some name
  | .mailboxRead name => some name
  | .mailboxSendAs name => some name
  | .markReadWrite name => some name
  | .hookCrud name => some name
  | .mailboxCreate _ => none
  | .systemCommand => none

/-- The check of the owner-gated actions. -/
def authorizeOwner (db : UserDb) (callerUid : UInt32) (name : Str) (mailbox : Option MailboxConfig) :
    Except AuthError Unit :=
  match mailbox with
  | none => .error .noSuchMailbox
  | some mb =>
      match db.ownerUid mb with
      | .ok uid => if uid = callerUid then .ok () else .error (.notOwner name)
      | .error _ => .error .noSuchMailbox

/-- `authorize`. -/
def authorize (db : UserDb) (callerUid : UInt32) (action : Action) (mailbox : Option MailboxConfig) :
    Except AuthError Unit :=
  if callerUid = 0 then .ok ()
  else
    match action with
    | .systemCommand => .error .notRoot
    | .mailboxCreate ownerUid =>
        if callerUid = ownerUid then .ok () else .error (.ownerMismatch ownerUid)
    | .mailboxDelete name => authorizeOwner db callerUid name mailbox
    | .mailboxRead name => authorizeOwner db callerUid name mailbox
    | .mailboxSendAs name => authorizeOwner db callerUid name mailbox
    | .markReadWrite name => authorizeOwner db callerUid name mailbox
    | .hookCrud name => authorizeOwner db callerUid name mailbox

/-- An owner that `authorize` looks up in the user database: the reserved catchall user, or a name of
the accepted shape other than root. -/
def Resolvable (owner : Str) : Prop :=
  owner ≠ reservedRunAsRoot ∧ (owner = reservedRunAsCatchall ∨ isValidSystemUsername owner = true)

instance (owner : Str) : Decidable (Resolvable owner) := inferInstanceAs (Decidable (_ ∧ _))

/-- The user database takes the owner's name to the uid exactly when it takes the uid to that name. -/
def Corresponds (db : UserDb) (uid : UInt32) (owner : Str) : Prop :=
  (Resolvable owner ∧ (db.resolveUser owner).map ResolvedUser.uid = some uid) ↔
    db.nameOf uid = some owner

section Authorize

variable {db : UserDb} {uid : UInt32} {mailbox : MailboxConfig}

/-- The owner resolves to the uid of a user that is not root. -/
theorem ownerUid_eq_ok_iff (huid : uid ≠ 0) :
    db.ownerUid mailbox = .ok uid ↔
      Resolvable mailbox.owner ∧
        (db.resolveUser mailbox.owner).map ResolvedUser.uid = some uid := by
  unfold UserDb.ownerUid ownerIds validateRunAs Resolvable
  by_cases hroot : mailbox.owner = reservedRunAsRoot
  · have hne : (0 : UInt32) ≠ uid := fun h => huid h.symm
    simp only [hroot, if_true, Except.map, ne_eq, not_true_eq_false, false_and,
      Except.ok.injEq, hne]
  · by_cases hcatchall : mailbox.owner = reservedRunAsCatchall
    · have hreserved : reservedRunAsCatchall ≠ reservedRunAsRoot := by decide
      simp only [hcatchall, if_neg hreserved, if_true]
      cases db.resolveUser reservedRunAsCatchall with
      | none => simp [Except.map]
      | some u => simp [Except.map, hreserved]
    · by_cases hvalid : isValidSystemUsername mailbox.owner = true
      · simp only [if_neg hroot, if_neg hcatchall, hvalid, Bool.not_true, Bool.false_eq_true,
          if_false]
        cases db.resolveUser mailbox.owner with
        | none => simp [Except.map]
        | some u => simp [Except.map, hroot]
      · rw [Bool.not_eq_true] at hvalid
        simp [hroot, hcatchall, hvalid, Except.map]

/-- Whom the check of the owner-gated actions lets pass. -/
theorem authorizeOwner_eq_ok_iff {name : Str} :
    authorizeOwner db uid name (some mailbox) = .ok () ↔ db.ownerUid mailbox = .ok uid := by
  unfold authorizeOwner
  dsimp only
  cases howner : db.ownerUid mailbox with
  | error e => simp
  | ok ownerUid =>
      dsimp only
      split
      next h => simp [h]
      next h => simp [h]

/-- An owner-gated action of a user that is not root goes through `authorizeOwner`. -/
theorem authorize_ownerGated {action : Action} {name : Str} (huid : uid ≠ 0)
    (h : action.ownerGated = some name) (mb : Option MailboxConfig) :
    authorize db uid action mb = authorizeOwner db uid name mb := by
  cases action with
  | mailboxCreate ownerUid => cases h
  | systemCommand => cases h
  | mailboxDelete n => cases h; rw [authorize, if_neg huid]
  | mailboxRead n => cases h; rw [authorize, if_neg huid]
  | mailboxSendAs n => cases h; rw [authorize, if_neg huid]
  | markReadWrite n => cases h; rw [authorize, if_neg huid]
  | hookCrud n => cases h; rw [authorize, if_neg huid]

/-- Whom `require_mailbox_owner_or_root` lets pass, root apart. -/
theorem requireMailboxOwnerOrRoot_isOk_iff {name : Str} (huid : uid ≠ 0) :
    (∃ decision, requireMailboxOwnerOrRoot (db.caller uid) name mailbox = .ok decision) ↔
      db.nameOf uid = some mailbox.owner := by
  have hroot : (db.caller uid).isRoot = false := by simpa [Caller.isRoot, UserDb.caller] using huid
  have hname : (db.caller uid).username = db.nameOf uid := by
    rw [Caller.username, if_neg]
    · rfl
    · exact huid
  unfold requireMailboxOwnerOrRoot
  rw [hroot, if_neg Bool.false_ne_true, hname]
  cases db.nameOf uid with
  | none => simp
  | some callerName =>
      dsimp only
      split
      next h => simp [h]
      next h => simp [h]

/-- **The two predicates agree exactly on root and on corresponding names and uids.** -/
theorem authorize_agrees_iff {action : Action} {name : Str} (h : action.ownerGated = some name) :
    (authorize db uid action (some mailbox) = .ok () ↔
        ∃ decision, requireMailboxOwnerOrRoot (db.caller uid) name mailbox = .ok decision) ↔
      uid = 0 ∨ Corresponds db uid mailbox.owner := by
  by_cases huid : uid = 0
  · have hroot : (db.caller uid).isRoot = true := by simp [Caller.isRoot, UserDb.caller, huid]
    have hauthorize : authorize db uid action (some mailbox) = .ok () := by
      unfold authorize
      rw [if_pos huid]
    have hrequire : ∃ decision,
        requireMailboxOwnerOrRoot (db.caller uid) name mailbox = .ok decision :=
      ⟨.rootBypass, by rw [requireMailboxOwnerOrRoot, if_pos hroot]⟩
    exact iff_of_true (iff_of_true hauthorize hrequire) (Or.inl huid)
  · rw [authorize_ownerGated huid h, authorizeOwner_eq_ok_iff, ownerUid_eq_ok_iff huid,
      requireMailboxOwnerOrRoot_isOk_iff huid, or_iff_right huid]
    exact Iff.rfl

end Authorize

/-- A mailbox of a user. -/
def mailboxOf (owner : String) : MailboxConfig :=
  { address := "info@example.com".toList, owner := owner.toList, hooks := [], trust := none,
    trustedSenders := none, allowRootCatchall := false }

/-- A user database with the names of `passwd` lines, in their order. -/
def passwd (entries : List (String × UInt32)) : UserDb where
  resolveUser name :=
    (entries.find? fun e => e.1.toList == name).map fun e => ⟨name, e.2, e.2⟩
  nameOf uid := (entries.find? fun e => e.2 == uid).map fun e => e.1.toList

/-- For users with a uid of their own, the predicates agree: `alice` passes both of them. -/
theorem authorize_agrees_alice :
    authorize (passwd [("alice", 1000), ("bob", 1001)]) 1000 (.hookCrud "info".toList)
        (some (mailboxOf "alice")) = .ok () ∧
      ∃ decision, requireMailboxOwnerOrRoot ((passwd [("alice", 1000), ("bob", 1001)]).caller 1000)
        "info".toList (mailboxOf "alice") = .ok decision := by
  have hpasses : authorize (passwd [("alice", 1000), ("bob", 1001)]) 1000 (.hookCrud "info".toList)
      (some (mailboxOf "alice")) = .ok () := by decide
  exact ⟨hpasses, ((authorize_agrees_iff rfl).mpr (Or.inr (by unfold Corresponds; decide))).mp hpasses⟩

/-- Two names share a uid: the second of them may delete its mailbox, but not mark mail in it.  A name
with a capital letter may mark mail, but not delete the mailbox. -/
theorem authorize_disagrees :
    (authorize (passwd [("alice", 1000), ("alicia", 1000)]) 1000 (.mailboxDelete "info".toList)
          (some (mailboxOf "alicia")) = .ok () ∧
      ¬ ∃ decision, requireMailboxOwnerOrRoot
        ((passwd [("alice", 1000), ("alicia", 1000)]).caller 1000) "info".toList
        (mailboxOf "alicia") = .ok decision) ∧
    (authorize (passwd [("Bob", 1001)]) 1001 (.mailboxDelete "info".toList)
          (some (mailboxOf "Bob")) ≠ .ok () ∧
      ∃ decision, requireMailboxOwnerOrRoot ((passwd [("Bob", 1001)]).caller 1001) "info".toList
        (mailboxOf "Bob") = .ok decision) := by
  refine ⟨⟨by decide, ?_⟩, by decide, .accept, by decide⟩
  rw [requireMailboxOwnerOrRoot_isOk_iff (by decide)]
  decide

end Daemon
end Aimx
