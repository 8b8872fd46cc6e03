import CloudId.Library.KeyedRows
import CloudId.Library.Reconciler

/-! The redirect rule in the NAT table of the router. A call reads the table and has the first
rule that matches the selector point to the service, or a new rule added. Whether the rule of an
earlier call whose answer was lost is recognised rests on what the selector says of the rule that
is sent. -/
namespace CloudId
open KeyedRows Reconciler

def imdsDst : String := "169.254.169.254"

def imdsPort : String := "80"

def managedComment : String := "IMDS redirect to cloudid (managed)"

/-! ## The REST API of the router -/

structure NatRule where
  id : String
  chain : String := ""
  dstAddress : String := ""
  protocol : String := ""
  dstPort : String := ""
  action : String := ""
  toAddresses : String := ""
  toPorts : String := ""
  comment : String := ""
  deriving DecidableEq

structure CreateNatRule where
  chain : String
  dstAddress : String
  protocol : String
  dstPort : String
  action : String
  toAddresses : String
  toPorts : String
  comment : String
  deriving DecidableEq

structure UpdateNatRule where
  toAddresses : String
  toPorts : String
  deriving DecidableEq

/-- The requests that change the table. -/
inductive NatRequest where
  | patch (id : String) (update : UpdateNatRule)
  | put (create : CreateNatRule)
  deriving DecidableEq

def UpdateNatRule.applyTo (update : UpdateNatRule) (rule : NatRule) : NatRule :=
  { rule with toAddresses := update.toAddresses, toPorts := update.toPorts }

/-- The new rule, under the id that the router gives it. -/
def CreateNatRule.withId (create : CreateNatRule) (id : String) : NatRule :=
  { id
    chain := create.chain
    dstAddress := create.dstAddress
    protocol := create.protocol
    dstPort := create.dstPort
    action := create.action
    toAddresses := create.toAddresses
    toPorts := create.toPorts
    comment := create.comment }

/-- What a request that takes effect makes of the table. -/
def NatRequest.serve (freshId : String) (rules : List NatRule) : NatRequest → List NatRule
  | .patch id targets => update NatRule.id id targets.applyTo rules
  | .put create => rules ++ [create.withId freshId]

/-! ## One call -/

/-- The selector of the redirect. -/
def NatRule.redirectsImds (rule : NatRule) : Bool :=
  rule.chain == "dstnat" && rule.dstAddress == imdsDst && rule.protocol == "tcp" &&
    rule.dstPort == imdsPort && rule.action == "dst-nat"

/-- The payload for a new redirect. -/
def redirectRule (cloudidIp cloudidPort : String) : CreateNatRule :=
  { chain := "dstnat"
    dstAddress := imdsDst
    protocol := "tcp"
    dstPort := imdsPort
    action := "dst-nat"
    toAddresses := cloudidIp
    toPorts := cloudidPort
    comment := managedComment }

/-- What a call leaves of the table, whether it returns `Ok`, and the PATCH and PUT requests it
has sent. -/
structure NatOutcome where
  rules : List NatRule
  succeeded : Bool
  sent : List NatRequest
  deriving DecidableEq

/-- Sends a request, the last one of the call. -/
def sendNatRequest (rules : List NatRule) (call : Call String) (request : NatRequest) :
    NatOutcome :=
  let (after, known) := call.ended.apply (fun rules => request.serve call.input rules) rules
  { rules := after, succeeded := known, sent := [request] }

/-- `ensure_nat_rule`: the call gets the table or fails, and the id of a new rule is the
router's. -/
def ensureNatRule (cloudidIp cloudidPort : String) (rules : List NatRule) (call : Call String) :
    NatOutcome :=
  if call.read = false then { rules, succeeded := false, sent := [] }
  else
    match rules.find? NatRule.redirectsImds with
    | some rule =>
      if rule.toAddresses = cloudidIp ∧ rule.toPorts = cloudidPort then
        { rules, succeeded := true, sent := [] }
      else
        sendNatRequest rules call
          (.patch rule.id { toAddresses := cloudidIp, toPorts := cloudidPort })
    | none =>
      sendNatRequest rules call (.put (redirectRule cloudidIp cloudidPort))

/-- The table after a call. -/
def natStep (cloudidIp cloudidPort : String) (rules : List NatRule) (call : Call String) :
    List NatRule := (ensureNatRule cloudidIp cloudidPort rules call).rules

/-! ## What a call is for -/

section Aim

variable (cloudidIp cloudidPort : String)

def NatRule.PointsTo (rule : NatRule) : Prop :=
  rule.toAddresses = cloudidIp ∧ rule.toPorts = cloudidPort

instance (rule : NatRule) : Decidable (rule.PointsTo cloudidIp cloudidPort) :=
  inferInstanceAs (Decidable (_ ∧ _))

/-- The first rule that matches the selector points to the service. -/
def Redirected (rules : List NatRule) : Prop :=
  ∃ rule, rules.find? NatRule.redirectsImds = some rule ∧ rule.PointsTo cloudidIp cloudidPort

/-- The request for a table whose first match is as given. -/
def natRequest : Option NatRule → NatRequest
  | some rule => .patch rule.id { toAddresses := cloudidIp, toPorts := cloudidPort }
  | none => .put (redirectRule cloudidIp cloudidPort)

/-- The aim of a call: a table that redirects to the service. -/
def natAim : Aim (List NatRule) String where
  settled := fun rules =>
    (rules.find? NatRule.redirectsImds).any fun rule => decide (rule.PointsTo cloudidIp cloudidPort)
  change := fun freshId rules =>
    (natRequest cloudidIp cloudidPort (rules.find? NatRule.redirectsImds)).serve freshId rules

variable {cloudidIp cloudidPort : String}

theorem nat_settled_of_found {rules : List NatRule} {rule : NatRule}
    (found : rules.find? NatRule.redirectsImds = some rule) :
    (natAim cloudidIp cloudidPort).settled rules =
      decide (rule.PointsTo cloudidIp cloudidPort) := by
  simp only [natAim, found, Option.any_some]

theorem nat_settled_of_absent {rules : List NatRule}
    (absent : rules.find? NatRule.redirectsImds = none) :
    (natAim cloudidIp cloudidPort).settled rules = false := by
  simp only [natAim, absent, Option.any_none]

theorem nat_settled_iff (rules : List NatRule) :
    (natAim cloudidIp cloudidPort).settled rules = true ↔
      Redirected cloudidIp cloudidPort rules := by
  unfold Redirected
  cases found : rules.find? NatRule.redirectsImds with
  | none =>
    rw [nat_settled_of_absent found]
    simp
  | some rule =>
    rw [nat_settled_of_found found]
    simp

/-- A call that finds the table unsettled sends the request of the aim. -/
theorem nat_call_of_unsettled {rules : List NatRule}
    (unsettled : (natAim cloudidIp cloudidPort).settled rules = false) (ended : ChangeEnd)
    (freshId : String) :
    (natAim cloudidIp cloudidPort).call rules ⟨true, ended, freshId⟩ =
      { state := (sendNatRequest rules ⟨true, ended, freshId⟩
          (natRequest cloudidIp cloudidPort (rules.find? NatRule.redirectsImds))).rules
        succeeded := (sendNatRequest rules ⟨true, ended, freshId⟩
          (natRequest cloudidIp cloudidPort (rules.find? NatRule.redirectsImds))).succeeded
        asked := true } := by
  unfold Aim.call
  rw [unsettled]
  cases ended <;> rfl

/-- **A call is one of the aim,** and what it sends is what the aim asks for. -/
theorem ensure_nat_rule_eq (rules : List NatRule) (call : Call String) :
    ensureNatRule cloudidIp cloudidPort rules call =
      { rules := ((natAim cloudidIp cloudidPort).call rules call).state
        succeeded := ((natAim cloudidIp cloudidPort).call rules call).succeeded
        sent := if ((natAim cloudidIp cloudidPort).call rules call).asked = true then
          [natRequest cloudidIp cloudidPort (rules.find? NatRule.redirectsImds)] else [] } := by
  obtain ⟨read, ended, freshId⟩ := call
  cases read with
  | false => rfl
  | true =>
    rw [ensureNatRule, if_neg nofun]
    cases found : rules.find? NatRule.redirectsImds with
    | none =>
      rw [nat_call_of_unsettled (nat_settled_of_absent found), found]
      rfl
    | some rule =>
      have settled : (natAim cloudidIp cloudidPort).settled rules = _ := nat_settled_of_found found
      by_cases right : rule.PointsTo cloudidIp cloudidPort
      · rw [decide_eq_true right] at settled
        rw [Aim.call, settled]
        exact if_pos right
      · rw [decide_eq_false right] at settled
        rw [nat_call_of_unsettled settled, found]
        exact if_neg right

theorem ensure_nat_rule_of_answered (rules : List NatRule) (freshId : String) :
    (ensureNatRule cloudidIp cloudidPort rules ⟨true, .answered, freshId⟩).succeeded = true := by
  rw [ensure_nat_rule_eq]
  exact (natAim cloudidIp cloudidPort).succeeded_of_answered rules freshId

theorem nat_step_eq : natStep cloudidIp cloudidPort = (natAim cloudidIp cloudidPort).step := by
  funext rules call
  rw [natStep, ensure_nat_rule_eq]
  rfl

end Aim

/-! ## What a change keeps -/

/-- A rule that is changed matches the selector as before. -/
theorem redirects_apply_to (targets : UpdateNatRule) (rule : NatRule) :
    (targets.applyTo rule).redirectsImds = rule.redirectsImds := rfl

/-- A rule that is added matches the selector, whatever its id: each field is the one that the
selector asks for. -/
theorem redirects_created (cloudidIp cloudidPort freshId : String) :
    ((redirectRule cloudidIp cloudidPort).withId freshId).redirectsImds = true := rfl

/-- What calls leave of a table: the ids are still unique, the rules outside the selector are as
they were, and there are no more matching rules than there were, or one. -/
structure NatKept (initial rules : List NatRule) : Prop where
  keyed : Keyed NatRule.id rules
  others : (rules.filter fun rule => !rule.redirectsImds) =
    initial.filter fun rule => !rule.redirectsImds
  few : rules.countP NatRule.redirectsImds ≤ max 1 (initial.countP NatRule.redirectsImds)

section Change

variable {cloudidIp cloudidPort : String} {initial rules : List NatRule}

theorem NatKept.patched (kept : NatKept initial rules) {rule : NatRule}
    (first : rules.find? NatRule.redirectsImds = some rule) (targets : UpdateNatRule) :
    NatKept initial (update NatRule.id rule.id targets.applyTo rules) := by
  have still : (targets.applyTo rule).redirectsImds = true :=
    (redirects_apply_to targets rule).trans (List.find?_some first)
  refine ⟨kept.keyed.update rule.id fun _ => rfl, ?_, ?_⟩
  · rw [others_update_first kept.keyed first still]
    exact kept.others
  · rw [count_update_first kept.keyed first still]
    exact kept.few

theorem NatKept.created (kept : NatKept initial rules)
    (absent : rules.find? NatRule.redirectsImds = none) {added : NatRule}
    (matching : added.redirectsImds = true) (fresh : added.id ∉ rules.map NatRule.id) :
    NatKept initial (rules ++ [added]) := by
  have nothing : rules.countP NatRule.redirectsImds = 0 := by
    rw [List.countP_eq_zero]
    exact List.find?_eq_none.mp absent
  refine ⟨kept.keyed.append fresh, ?_, ?_⟩
  · rw [List.filter_append, List.filter_singleton, matching]
    simpa using kept.others
  · rw [List.countP_append, nothing, List.countP_singleton, matching]
    exact Nat.le_max_left _ _

/-- The id that the router gives to a new rule is a fresh one. -/
def FreshId (rules : List NatRule) (call : Call String) : Prop :=
  call.input ∉ rules.map NatRule.id

instance (rules : List NatRule) (call : Call String) : Decidable (FreshId rules call) :=
  inferInstanceAs (Decidable (_ ∉ _))

theorem NatKept.changed (kept : NatKept initial rules) {call : Call String}
    (fresh : FreshId rules call) :
    NatKept initial ((natAim cloudidIp cloudidPort).change call.input rules) := by
  unfold natAim
  dsimp only
  cases first : rules.find? NatRule.redirectsImds with
  | none => exact kept.created first (redirects_created _ _ _) fresh
  | some rule => exact kept.patched first _

/-- **A change makes the first match point to the service,** the one that it finds or the one
that it adds. -/
theorem redirected_of_changed (keyed : Keyed NatRule.id rules) (freshId : String) :
    Redirected cloudidIp cloudidPort ((natAim cloudidIp cloudidPort).change freshId rules) := by
  unfold natAim
  dsimp only
  cases first : rules.find? NatRule.redirectsImds with
  | none =>
    refine ⟨(redirectRule cloudidIp cloudidPort).withId freshId, ?_, rfl, rfl⟩
    have matching := redirects_created cloudidIp cloudidPort freshId
    simp only [natRequest, NatRequest.serve, List.find?_append, first, Option.none_or,
      List.find?_singleton, if_pos matching]
  | some rule =>
    have still := (redirects_apply_to ⟨cloudidIp, cloudidPort⟩ rule).trans (List.find?_some first)
    exact ⟨_, find_update_first keyed first still, rfl, rfl⟩

end Change

/-! ## Runs of calls -/

/-- **The reconciler of the redirect converges,** whichever requests fail and whichever answers
are lost. Throughout a run no rule outside the selector is changed or removed, and the rules that
match it are no more than they were, or one. After a call that returns `Ok` the first match points
to the service, and the next call sends no PATCH or PUT; a call whose requests are answered returns
`Ok`. -/
theorem nat_rule_reconciled (cloudidIp cloudidPort : String) (rules : List NatRule)
    (unique : Keyed NatRule.id rules) (calls : List (Call String))
    (fresh : GuardedRun.Each (natStep cloudidIp cloudidPort) FreshId rules calls) :
    GuardedRun.Throughout (natStep cloudidIp cloudidPort)
        (fun after => (after.filter fun rule => !rule.redirectsImds) =
            (rules.filter fun rule => !rule.redirectsImds) ∧
          after.countP NatRule.redirectsImds ≤ max 1 (rules.countP NatRule.redirectsImds))
        rules calls ∧
      (∀ done call, done ++ [call] <+: calls →
        (ensureNatRule cloudidIp cloudidPort
          (done.foldl (natStep cloudidIp cloudidPort) rules) call).succeeded = true →
        Redirected cloudidIp cloudidPort
            ((done ++ [call]).foldl (natStep cloudidIp cloudidPort) rules) ∧
          ∀ next, (ensureNatRule cloudidIp cloudidPort
            ((done ++ [call]).foldl (natStep cloudidIp cloudidPort) rules) next).sent = []) ∧
      ∀ done, done <+: calls → ∀ freshId, (ensureNatRule cloudidIp cloudidPort
        (done.foldl (natStep cloudidIp cloudidPort) rules)
          ⟨true, .answered, freshId⟩).succeeded = true := by
  rw [nat_step_eq] at fresh ⊢
  have start : NatKept rules rules := ⟨unique, rfl, Nat.le_max_right _ _⟩
  have keeps : ∀ after call, NatKept rules after → FreshId after call →
      (natAim cloudidIp cloudidPort).settled after = false →
      NatKept rules ((natAim cloudidIp cloudidPort).change call.input after) :=
    fun _ _ kept fresh _ => kept.changed fresh
  refine ⟨?_, ?_, ?_⟩
  · exact ((natAim cloudidIp cloudidPort).throughout (NatKept rules) keeps start fresh).mono
      fun after kept => ⟨kept.others, kept.few⟩
  · intro done call before succeeded
    rw [ensure_nat_rule_eq] at succeeded
    obtain ⟨settled, quiet⟩ := (natAim cloudidIp cloudidPort).settled_of_succeeded (NatKept rules)
      keeps (fun _ input kept _ =>
        (nat_settled_iff _).mpr (redirected_of_changed kept.keyed input))
      start fresh before succeeded
    refine ⟨(nat_settled_iff _).mp settled, fun next => ?_⟩
    rw [ensure_nat_rule_eq, quiet next]
    rfl
  · exact fun done _ freshId => ensure_nat_rule_of_answered _ freshId

/-- A table with a rule of the operator. -/
def operatorRules : List NatRule :=
  [{ id := "*1", chain := "srcnat", action := "masquerade", comment := "default" }]

/-- The table with a redirect to where the service was before. -/
def staleRules : List NatRule :=
  operatorRules ++ [(redirectRule "192.168.200.9" "8090").withId "*7"]

/-- The first call loses the answer to its change; the next one sends nothing, and the table is
right. -/
def LostChangeRecognised (rules : List NatRule) : Prop :=
  let calls : List (Call String) := [⟨true, .lost, "*8"⟩, ⟨true, .answered, "*9"⟩]
  Redirected "192.168.200.20" "8090" (calls.foldl (natStep "192.168.200.20" "8090") rules) ∧
    (calls.foldl (natStep "192.168.200.20" "8090") rules).countP NatRule.redirectsImds ≤ 1 ∧
    (ensureNatRule "192.168.200.20" "8090"
      ((calls.take 1).foldl (natStep "192.168.200.20" "8090") rules)
        ⟨true, .answered, "*9"⟩).sent = []

/-- It is recognised whether it has added a rule or has changed one. -/
theorem lost_changes_are_recognised :
    LostChangeRecognised operatorRules ∧ LostChangeRecognised staleRules := by
  constructor
  · obtain ⟨kept, converges, answered⟩ := nat_rule_reconciled "192.168.200.20" "8090" operatorRules
      (by decide) [⟨true, .lost, "*8"⟩, ⟨true, .answered, "*9"⟩] (by decide)
    exact ⟨(converges [⟨true, .lost, "*8"⟩] ⟨true, .answered, "*9"⟩ List.prefix_rfl
      (answered [⟨true, .lost, "*8"⟩] (List.prefix_append _ _) "*9")).1,
      (kept _ List.prefix_rfl).2, by decide⟩
  · obtain ⟨kept, converges, answered⟩ := nat_rule_reconciled "192.168.200.20" "8090" staleRules
      (by decide) [⟨true, .lost, "*8"⟩, ⟨true, .answered, "*9"⟩] (by decide)
    exact ⟨(converges [⟨true, .lost, "*8"⟩] ⟨true, .answered, "*9"⟩ List.prefix_rfl
      (answered [⟨true, .lost, "*8"⟩] (List.prefix_append _ _) "*9")).1,
      (kept _ List.prefix_rfl).2, by decide⟩

end CloudId
