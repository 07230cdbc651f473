import NexusTok.Decimal.Basic
import NexusTok.Store.Table
import NexusTok.Store.Transaction
import NexusTok.Text.Basic

/-!
# The database

The rows of the tables that the billing, subscription and payment code reads and writes, with the
columns that code uses, and the database as the tuple of its tables.

Money is exact: a `float64` column is modelled by the decimal number `decimal.NewFromFloat` makes
of it, which is the only way the code looks at it.  Identifiers, amounts and times are integers.

A statement of the code that talks to the database can fail.  `Faults` says which ones do; a
function that runs a statement of the same kind on the same table twice tells the two apart by
`Stmt.nth`.
-/

namespace NexusTok

open Table

/-! ### Rows -/

/-- Payment gateways, as the order rows name them. -/
inductive PaymentProvider where
  | epay | stripe | creem | waffo | waffoPancake | balance
  /-- The column default, `""`. -/
  | unset
  deriving DecidableEq

/-- Status of a payment order. -/
inductive TopUpStatus where
  | pending | success | failed | expired
  deriving DecidableEq

/-- Status of a user's subscription. -/
inductive SubscriptionStatus where
  | active | expired | cancelled
  deriving DecidableEq

inductive PreConsumeStatus where
  | consumed | refunded
  deriving DecidableEq

inductive RedemptionStatus where
  | enabled | disabled | used
  deriving DecidableEq

/-- Unit of a plan's duration; a value the code does not know is kept as it is. -/
inductive DurationUnit where
  | year | month | day | hour | custom
  | other (unit : String)
  deriving DecidableEq

structure User where
  id : ℤ
  quota : ℤ
  usedQuota : ℤ
  requestCount : ℤ
  group : String
  email : String
  stripeCustomer : String
  deriving DecidableEq

/-- An API token. -/
structure Token where
  id : ℤ
  remainQuota : ℤ
  usedQuota : ℤ
  deriving DecidableEq

structure SubscriptionPlan where
  id : ℤ
  title : String
  priceAmount : Decimal
  durationUnit : DurationUnit
  durationValue : ℤ
  customSeconds : ℤ
  enabled : Bool
  allowBalancePay : Option Bool
  allowWalletOverflow : Option Bool
  /-- Purchases allowed to one user; `0` is unlimited. -/
  maxPurchasePerUser : ℤ
  upgradeGroup : String
  downgradeGroup : String
  /-- Quota of a subscription; `0` is unlimited. -/
  totalAmount : ℤ
  quotaResetPeriod : String
  quotaResetCustomSeconds : ℤ
  deriving DecidableEq

/-- A subscription a user holds. -/
structure UserSubscription where
  id : ℤ
  userId : ℤ
  planId : ℤ
  amountTotal : ℤ
  amountUsed : ℤ
  startTime : ℤ
  endTime : ℤ
  status : SubscriptionStatus
  source : String
  lastResetTime : ℤ
  nextResetTime : ℤ
  upgradeGroup : String
  prevUserGroup : String
  downgradeGroup : String
  allowWalletOverflow : Bool
  deriving DecidableEq

/-- What a request has pre-consumed of a subscription; the request id is unique. -/
structure SubscriptionPreConsumeRecord where
  requestId : String
  userId : ℤ
  userSubscriptionId : ℤ
  preConsumed : ℤ
  status : PreConsumeStatus
  deriving DecidableEq

/-- An order for a subscription; the trade number is unique. -/
structure SubscriptionOrder where
  userId : ℤ
  planId : ℤ
  money : Decimal
  tradeNo : String
  paymentMethod : String
  paymentProvider : PaymentProvider
  status : TopUpStatus
  createTime : ℤ
  completeTime : ℤ
  providerPayload : String
  deriving DecidableEq

/-- A wallet top-up order; the trade number is unique. -/
structure TopUp where
  userId : ℤ
  amount : ℤ
  money : Decimal
  tradeNo : String
  paymentMethod : String
  paymentProvider : PaymentProvider
  createTime : ℤ
  completeTime : ℤ
  status : TopUpStatus
  deriving DecidableEq

/-- A redemption code; the key is unique. -/
structure Redemption where
  id : ℤ
  key : String
  status : RedemptionStatus
  quota : ℤ
  redeemedTime : ℤ
  usedUserId : ℤ
  expiredTime : ℤ
  /-- Soft-deleted rows are invisible to every query. -/
  deleted : Bool
  deriving DecidableEq

/-- A daily check-in; a user has at most one a day. -/
structure Checkin where
  userId : ℤ
  checkinDate : String
  quotaAwarded : ℤ
  deriving DecidableEq

structure DB where
  users : List User
  tokens : List Token
  plans : List SubscriptionPlan
  subscriptions : List UserSubscription
  preConsumeRecords : List SubscriptionPreConsumeRecord
  orders : List SubscriptionOrder
  topUps : List TopUp
  redemptions : List Redemption
  checkins : List Checkin
  deriving DecidableEq

namespace DB

/-- A database without rows. -/
def empty : DB := ⟨[], [], [], [], [], [], [], [], []⟩

def user (db : DB) (id : ℤ) : Option User := Table.get User.id id db.users

def token (db : DB) (id : ℤ) : Option Token := Table.get Token.id id db.tokens

def plan (db : DB) (id : ℤ) : Option SubscriptionPlan := Table.get SubscriptionPlan.id id db.plans

def subscription (db : DB) (id : ℤ) : Option UserSubscription :=
  Table.get UserSubscription.id id db.subscriptions

def preConsumeRecord (db : DB) (requestId : String) : Option SubscriptionPreConsumeRecord :=
  Table.get SubscriptionPreConsumeRecord.requestId requestId db.preConsumeRecords

/-- The subscription order with a trade number. -/
def order (db : DB) (tradeNo : String) : Option SubscriptionOrder :=
  Table.get SubscriptionOrder.tradeNo tradeNo db.orders

/-- The top-up order with a trade number. -/
def topUp (db : DB) (tradeNo : String) : Option TopUp := Table.get TopUp.tradeNo tradeNo db.topUps

/-- The visible redemption code with a key. -/
def redemption (db : DB) (key : String) : Option Redemption :=
  Table.get Redemption.key key (db.redemptions.filter fun r => !r.deleted)

/-- `UPDATE users … WHERE id = ?`. -/
def updateUser (db : DB) (id : ℤ) (f : User → User) : DB :=
  { db with users := Table.modify User.id id f db.users }

/-- `UPDATE tokens … WHERE id = ?`. -/
def updateToken (db : DB) (id : ℤ) (f : Token → Token) : DB :=
  { db with tokens := Table.modify Token.id id f db.tokens }

/-- Write a subscription back. -/
def saveSubscription (db : DB) (sub : UserSubscription) : DB :=
  { db with subscriptions := Table.put UserSubscription.id sub db.subscriptions }

/-- Write a subscription back if it was changed. -/
def saveIf (db : DB) (changed : Bool) (sub : UserSubscription) : DB :=
  if changed then db.saveSubscription sub else db

/-- Insert a pre-consume record. -/
def addRecord (db : DB) (r : SubscriptionPreConsumeRecord) : DB :=
  { db with preConsumeRecords := db.preConsumeRecords ++ [r] }

/-- Write a pre-consume record back. -/
def saveRecord (db : DB) (r : SubscriptionPreConsumeRecord) : DB :=
  { db with
    preConsumeRecords :=
      Table.put SubscriptionPreConsumeRecord.requestId r db.preConsumeRecords }

/-- Insert a subscription order. -/
def addOrder (db : DB) (o : SubscriptionOrder) : DB := { db with orders := db.orders ++ [o] }

/-- Insert a top-up order. -/
def addTopUp (db : DB) (t : TopUp) : DB := { db with topUps := db.topUps ++ [t] }

/-- Write a subscription order back. -/
def saveOrder (db : DB) (o : SubscriptionOrder) : DB :=
  { db with orders := Table.put SubscriptionOrder.tradeNo o db.orders }

/-- Write a top-up order back. -/
def saveTopUp (db : DB) (t : TopUp) : DB :=
  { db with topUps := Table.put TopUp.tradeNo t db.topUps }

/-! ### Reads after writes -/

section Frame

variable {db : DB}

variable {sub row : UserSubscription}

theorem subscription_id {id : ℤ} (h : db.subscription id = some sub) :
    sub.id = id := get_key h

variable {r : SubscriptionPreConsumeRecord}

theorem preConsumeRecord_requestId {rid : String}
    (h : db.preConsumeRecord rid = some r) : r.requestId = rid := get_key h

theorem subscription_save {id : ℤ} (h : db.subscription id = some sub)
    (hid : row.id = id) : (db.saveSubscription row).subscription id = some row := by
  subst hid
  exact get_put h

theorem subscription_save_ne {id : ℤ} (hid : id ≠ row.id) :
    (db.saveSubscription row).subscription id = db.subscription id := get_put_ne hid

@[simp] theorem preConsumeRecord_saveSubscription (row : UserSubscription) (rid : String) :
    (db.saveSubscription row).preConsumeRecord rid = db.preConsumeRecord rid := rfl

theorem preConsumeRecord_save {rid : String} {r' : SubscriptionPreConsumeRecord}
    (h : db.preConsumeRecord rid = some r) (hid : r'.requestId = rid) :
    (db.saveRecord r').preConsumeRecord rid = some r' := by
  subst hid
  exact get_put h

theorem preConsumeRecord_add {rid : String}
    (h : db.preConsumeRecord rid = none) (hid : r.requestId = rid) :
    (db.addRecord r).preConsumeRecord rid = some r := by
  refine (get_append_none h [r]).trans ?_
  rw [get_cons, if_pos hid]

theorem ids_saveSubscription (row : UserSubscription) :
    (db.saveSubscription row).subscriptions.map UserSubscription.id =
      db.subscriptions.map UserSubscription.id := keys_put row _

/-- A row of the table is the one found under its id. -/
theorem subscription_of_mem
    (hn : (db.subscriptions.map UserSubscription.id).Nodup) (h : sub ∈ db.subscriptions) :
    db.subscription sub.id = some sub := get_of_mem hn h

end Frame

end DB

/-! ### Errors and faults -/

/-- The tables by name. -/
inductive TableName where
  | users | tokens | plans | subscriptions | preConsumeRecords | orders | topUps | redemptions
  | checkins
  deriving DecidableEq

/-- What a statement does. -/
inductive StmtKind where
  | find | count | create | save | update | delete
  /-- The save of a subscription whose quota was reset on the way. -/
  | reset
  /-- The commit of the transaction that writes the table. -/
  | commit
  deriving DecidableEq

/-- A statement of the code, told apart from the same statement elsewhere by `nth`. -/
structure Stmt where
  kind : StmtKind
  table : TableName
  nth : ℤ
  deriving DecidableEq

/-- An error: one the code makes, by its text, or one a statement failed with. -/
inductive Err where
  | text (message : String)
  | db (stmt : Stmt)
  /-- `QuotaClamp`: a conversion to a quota that would have had to be clamped. -/
  | quotaClamp (op kind : String) (original clamped : ℤ)
  /-- Not an error the code returns: the call is stuck in a loop and never returns. -/
  | diverges
  deriving DecidableEq

/-- Which statements fail. -/
abbrev Faults := Stmt → Bool

/-- No statement fails. -/
def Faults.none : Faults := fun _ => false

/-- `gorm.ErrRecordNotFound`. -/
def errRecordNotFound : Err := .text "record not found"

def errPaymentMethodMismatch : Err := .text "payment method mismatch"

/-- A call that expects a provider comes to an order of another one; expecting `""` skips the
check. -/
def providerMismatch (expected actual : PaymentProvider) : Bool :=
  decide (expected ≠ .unset ∧ actual ≠ expected)

/-- The error of a failing commit. -/
def commitErr (f : Faults) (table : TableName) : Option Err :=
  if f ⟨.commit, table, 0⟩ then some (.db ⟨.commit, table, 0⟩) else none

@[simp] theorem commitErr_none (table : TableName) : commitErr .none table = none := rfl

theorem commitErr_eq_none {f : Faults} {table : TableName} :
    commitErr f table = none ↔ f ⟨.commit, table, 0⟩ = false := by
  simp [commitErr]

end NexusTok
