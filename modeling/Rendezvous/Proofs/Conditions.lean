import Rendezvous.Proofs.Numerals
import Rendezvous.Settings

/-!
# Which settings are accepted

The variables are checked one after the other. What is required of them is a list of conditions
(`Condition.all`), in the order in which they are checked; each speaks of the texts of the variables
and not of how these are read. An environment is accepted exactly if it meets all of them, and the
settings are then what its variables say, or the default where one is not set (`Describes`). One
that is not accepted is refused for the first condition that it does not meet
(`ofEnvironment_follows_conditions`).
-/

namespace Rendezvous

/-! ## Names -/

/-- The text, trimmed and with its ASCII letters in lower case, is one of the names. Trimming is by
the blanks of Unicode. -/
def Called (names : List String) (text : String) : Prop :=
  ∃ t, Text.Trims text.toList t ∧ String.ofList (t.map Char.toLower) ∈ names

def Backend.names : Backend → List String
  | .memory => ["memory", "in_memory"]
  | .postgres => ["postgres", "pg"]

def Transport.names : Transport → List String
  | .bus => ["in_memory", "memory", "bus"]
  | .direct => ["direct"]

theorem Backend.ofName?_iff (name : String) (b : Backend) :
    ofName? name = some b ↔ name ∈ b.names := by
  unfold ofName?
  split <;> cases b <;> simp_all [names]

theorem Transport.ofName?_iff (name : String) (k : Transport) :
    ofName? name = some k ↔ name ∈ k.names := by
  unfold ofName?
  split <;> cases k <;> simp_all [names]

namespace Settings

/-- The error quotes the text, which is none of the names of any choice. -/
def Misnamed {α : Type} (names : α → List String) (unknown : String → SettingsError) (text : String)
    (e : SettingsError) : Prop :=
  (∀ a, ¬ Called (names a) text)
    ∧ ∃ t, Text.Trims text.toList t ∧ e = unknown (String.ofList (t.map Char.toLower))

theorem called_iff {names : List String} {text : String} :
    Called names text ↔ Text.fold text ∈ names := by
  simp [Called, Text.trims_iff, Text.fold]

theorem misnamed_iff {α : Type} {names : α → List String} {unknown : String → SettingsError}
    {text : String} {e : SettingsError} : Misnamed names unknown text e
      ↔ (∀ a, Text.fold text ∉ names a) ∧ e = unknown (Text.fold text) := by
  simp [Misnamed, called_iff, Text.trims_iff, Text.fold]

/-- Looks a text up in a table of names. The parsers of all choices are this one, with their own
names and errors. -/
def named {α : Type} (ofName? : String → Option α) (unknown : String → SettingsError)
    (text : String) : Except SettingsError α :=
  match ofName? (Text.fold text) with
  | some a => .ok a
  | none => .error (unknown (Text.fold text))

section

variable {α : Type} {ofName? : String → Option α} {names : α → List String}
  (h : ∀ name a, ofName? name = some a ↔ name ∈ names a) {unknown : String → SettingsError}
  {text : String}

include h

theorem named_ok_iff {a : α} : named ofName? unknown text = .ok a ↔ Called (names a) text := by
  rw [called_iff, ← h, named]
  cases ofName? (Text.fold text) <;> simp

theorem named_error_iff {e : SettingsError} :
    named ofName? unknown text = .error e ↔ Misnamed names unknown text e := by
  rw [named]
  simp only [misnamed_iff, ← h]
  cases ofName? (Text.fold text) <;> simp [eq_comm]

end

theorem backend_parse_eq : Backend.parse = named Backend.ofName? .unknownBackend := by
  funext text
  rw [Backend.parse, named]
  cases Backend.ofName? (Text.fold text) <;> rfl

theorem transport_parse_eq : Transport.parse = named Transport.ofName? .unknownTransport := by
  funext text
  rw [Transport.parse, named]
  cases Transport.ofName? (Text.fold text) <;> rfl

/-! ## Numbers -/

/-- The text, trimmed, is a numeral of the number `n`, and that is one of 64 bits. A plus sign and
leading zeros are allowed. -/
def Counts (text : String) (n : Nat) : Prop :=
  ∃ t, Text.Trims text.toList t ∧ Text.Numeral t n ∧ n ≤ 2 ^ 64 - 1

/-- The error says why the text of the variable `name` is no number of 64 bits, and which variable
it is. -/
def Miscounted (name text : String) (e : SettingsError) : Prop :=
  ∃ t cause, Text.Trims text.toList t ∧ Text.Misread (2 ^ 64 - 1) t cause
    ∧ e = .notCount name cause

/-- Reads the text of a variable that holds a number. It is the check that the three numbers of the
settings have in common. -/
def number (name text : String) : Except SettingsError Nat :=
  match Text.readCount Text.greatestWord (Text.trim text.toList) with
  | .ok n => .ok n
  | .error cause => .error (.notCount name cause)

theorem number_ok_iff {name text : String} {n : Nat} :
    number name text = .ok n ↔ Counts text n := by
  have hcounts : Counts text n
      ↔ Text.readCount Text.greatestWord (Text.trim text.toList) = .ok n := by
    simp only [Counts, Text.trims_iff, exists_eq_left]
    exact Text.readCount_ok_iff.symm
  rw [hcounts, number]
  cases Text.readCount Text.greatestWord (Text.trim text.toList) <;> simp

theorem number_error_iff {name text : String} {e : SettingsError} :
    number name text = .error e ↔ Miscounted name text e := by
  have hcause : ∀ cause, Text.Misread (2 ^ 64 - 1) (Text.trim text.toList) cause
      ↔ Text.readCount Text.greatestWord (Text.trim text.toList) = .error cause :=
    fun cause => Text.readCount_error_iff.symm
  simp only [Miscounted, Text.trims_iff, exists_and_left, exists_eq_left, hcause]
  rw [number]
  cases Text.readCount Text.greatestWord (Text.trim text.toList) <;> simp [eq_comm]

/-! ## Variables -/

/-- What the variable says, by what its text means; one that is not set says `unset`. No text means
more than one thing. -/
def Says {α : Type} (env : Environment) (name : String) (means : String → α → Prop) (unset a : α) :
    Prop :=
  match env name with
  | none => a = unset
  | some text => means text a

/-- The variable is set, and the error is about its text, as `wrong` says. -/
def Blames (env : Environment) (name : String) (wrong : String → SettingsError → Prop)
    (e : SettingsError) : Prop :=
  ∃ text, env name = some text ∧ wrong text e

theorem choice_ok_iff {α : Type} {env : Environment} {name : String}
    {parse : String → Except SettingsError α} {means : String → α → Prop}
    (h : ∀ text a, parse text = .ok a ↔ means text a) {unset a : α} :
    choice env name parse unset = .ok a ↔ Says env name means unset a := by
  unfold choice Says
  cases env name with
  | none => simp [eq_comm]
  | some text => exact h text a

theorem choice_error_iff {α : Type} {env : Environment} {name : String}
    {parse : String → Except SettingsError α} {wrong : String → SettingsError → Prop}
    (h : ∀ text e, parse text = .error e ↔ wrong text e) {unset : α} {e : SettingsError} :
    choice env name parse unset = .error e ↔ Blames env name wrong e := by
  unfold choice Blames
  cases env name with
  | none => simp
  | some text => simp [h]

/-! ## Conditions -/

/-- What is required of the variables, one condition for each check that is made. Most are that a
variable can be read; two are about what it says. -/
inductive Condition
  | interval
  | positive
  | backend
  | transport
  | address
  | lifetime
  | capacity
deriving DecidableEq

abbrev Numbers (env : Environment) (name : String) (unset n : Nat) : Prop :=
  Says env name Counts unset n

abbrev Keeps (env : Environment) : Backend → Prop :=
  Says env "RESUME_STORE_BACKEND" (fun text b => Called b.names text) default.backend

abbrev Carries (env : Environment) : Transport → Prop :=
  Says env "RESUME_EVENT_TRANSPORT" (fun text k => Called k.names text) default.transport

namespace Condition

/-- The conditions in the order in which they are checked. The first that is not met decides the
error, and the later ones are not looked at. -/
def all : List Condition :=
  [.interval, .positive, .backend, .transport, .address, .lifetime, .capacity]

def Holds (env : Environment) : Condition → Prop
  | .interval => ∃ n, Numbers env "RESUME_POLL_INTERVAL_MS" default.pollIntervalMs n
  | .positive => ¬ Numbers env "RESUME_POLL_INTERVAL_MS" default.pollIntervalMs 0
  | .backend => ∃ b, Keeps env b
  | .transport => ∃ k, Carries env k
  | .address => Keeps env .postgres → ∃ url, env "DATABASE_URL" = some url ∧ url ≠ ""
  | .lifetime => ∃ n, Numbers env "RESUME_AWAIT_TTL_SECS" default.holdSecs n
  | .capacity => ∃ n, Numbers env "RESUME_AWAIT_CAPACITY" default.holdCapacity n

/-- The error that reports that the condition is not met. Where it is about a text, it says what is
wrong with it. -/
def Reports (env : Environment) : Condition → SettingsError → Prop
  | .interval => Blames env "RESUME_POLL_INTERVAL_MS" (Miscounted "RESUME_POLL_INTERVAL_MS")
  | .positive => (· = .zeroInterval)
  | .backend => Blames env "RESUME_STORE_BACKEND" (Misnamed Backend.names .unknownBackend)
  | .transport => Blames env "RESUME_EVENT_TRANSPORT" (Misnamed Transport.names .unknownTransport)
  | .address => (· = .missingUrl)
  | .lifetime => Blames env "RESUME_AWAIT_TTL_SECS" (Miscounted "RESUME_AWAIT_TTL_SECS")
  | .capacity => Blames env "RESUME_AWAIT_CAPACITY" (Miscounted "RESUME_AWAIT_CAPACITY")

end Condition

/-- The settings are what the variables say, or the default where one is not set. There is at most
one such record of settings. -/
structure Describes (env : Environment) (s : Settings) : Prop where
  interval : Numbers env "RESUME_POLL_INTERVAL_MS" default.pollIntervalMs s.pollIntervalMs
  backend : Keeps env s.backend
  transport : Carries env s.transport
  address : ∀ url, s.databaseUrl = some url ↔ env "DATABASE_URL" = some url ∧ url ≠ ""
  lifetime : Numbers env "RESUME_AWAIT_TTL_SECS" default.holdSecs s.holdSecs
  capacity : Numbers env "RESUME_AWAIT_CAPACITY" default.holdCapacity s.holdCapacity
  logJson : s.logJson = true ↔ ∃ text, env "RESUME_LOG_JSON" = some text
    ∧ (text = "1" ∨ text.toList.map Char.toLower = "true".toList)

/-! ## What is read is what is said -/

variable {env : Environment}

theorem count_ok_iff {name : String} {unset n : Nat} :
    count env name unset = .ok n ↔ Numbers env name unset n :=
  choice_ok_iff fun text m => show number name text = .ok m ↔ _ from number_ok_iff

theorem count_error_iff {name : String} {unset : Nat} {e : SettingsError} :
    count env name unset = .error e ↔ Blames env name (Miscounted name) e :=
  choice_error_iff fun text e => show number name text = .error e ↔ _ from number_error_iff

theorem backend_ok_iff {b : Backend} :
    choice env "RESUME_STORE_BACKEND" Backend.parse default.backend = .ok b ↔ Keeps env b := by
  rw [backend_parse_eq]
  exact choice_ok_iff fun _ _ => named_ok_iff Backend.ofName?_iff

theorem backend_error_iff {e : SettingsError} :
    choice env "RESUME_STORE_BACKEND" Backend.parse default.backend = .error e
      ↔ Condition.backend.Reports env e := by
  rw [backend_parse_eq]
  exact choice_error_iff fun _ _ => named_error_iff Backend.ofName?_iff

theorem transport_ok_iff {k : Transport} :
    choice env "RESUME_EVENT_TRANSPORT" Transport.parse default.transport = .ok k
      ↔ Carries env k := by
  rw [transport_parse_eq]
  exact choice_ok_iff fun _ _ => named_ok_iff Transport.ofName?_iff

theorem transport_error_iff {e : SettingsError} :
    choice env "RESUME_EVENT_TRANSPORT" Transport.parse default.transport = .error e
      ↔ Condition.transport.Reports env e := by
  rw [transport_parse_eq]
  exact choice_error_iff fun _ _ => named_error_iff Transport.ofName?_iff

def url? (env : Environment) : Option String := (env "DATABASE_URL").filter (· ≠ "")

theorem url?_eq_some_iff {url : String} :
    url? env = some url ↔ env "DATABASE_URL" = some url ∧ url ≠ "" := by
  simp [url?, Option.filter_eq_some_iff]

theorem any_isOn_iff : (env "RESUME_LOG_JSON").any isOn = true
    ↔ ∃ text, env "RESUME_LOG_JSON" = some text
      ∧ (text = "1" ∨ text.toList.map Char.toLower = "true".toList) := by
  rw [Option.any_eq_true]
  refine exists_congr fun text => and_congr_right fun _ => ?_
  rw [isOn, Bool.or_eq_true, decide_eq_true_eq, decide_eq_true_eq, or_comm]

/-- The checks in turn, each with what follows it. Reading is the first of them that fails, or else
the settings they have read. -/
theorem ofEnvironment_eq (env : Environment) : ofEnvironment env
    = (count env "RESUME_POLL_INTERVAL_MS" default.pollIntervalMs >>= fun n =>
      if n = 0 then .error .zeroInterval else
      choice env "RESUME_STORE_BACKEND" Backend.parse default.backend >>= fun b =>
      choice env "RESUME_EVENT_TRANSPORT" Transport.parse default.transport >>= fun k =>
      if b = .postgres && (url? env).isNone then .error .missingUrl else
      count env "RESUME_AWAIT_TTL_SECS" default.holdSecs >>= fun t =>
      count env "RESUME_AWAIT_CAPACITY" default.holdCapacity >>= fun c =>
      .ok ⟨n, b, url? env, k, t, c, (env "RESUME_LOG_JSON").any isOn⟩) := rfl

/-! ## Checking the conditions -/

namespace Condition

def fault? {α : Type} : Except SettingsError α → Option SettingsError
  | .ok _ => none
  | .error e => some e

@[simp] theorem fault?_ok {α : Type} (a : α) : fault? (.ok a) = none := rfl

@[simp] theorem fault?_error {α : Type} (e : SettingsError) :
    fault? (.error e : Except SettingsError α) = some e := rfl

theorem fault?_eq_none_iff {α : Type} {x : Except SettingsError α} :
    fault? x = none ↔ ∃ a, x = .ok a := by
  cases x <;> simp

theorem fault?_eq_some_iff {α : Type} {x : Except SettingsError α} {e : SettingsError} :
    fault? x = some e ↔ x = .error e := by
  cases x <;> simp

/-- The error with which the condition, by itself, refuses the variables. It stands for the step of
the reader that sees to it. -/
def check (env : Environment) : Condition → Option SettingsError
  | .interval => fault? (count env "RESUME_POLL_INTERVAL_MS" default.pollIntervalMs)
  | .positive =>
      if count env "RESUME_POLL_INTERVAL_MS" default.pollIntervalMs = .ok 0 then some .zeroInterval
      else none
  | .backend => fault? (choice env "RESUME_STORE_BACKEND" Backend.parse default.backend)
  | .transport => fault? (choice env "RESUME_EVENT_TRANSPORT" Transport.parse default.transport)
  | .address =>
      if choice env "RESUME_STORE_BACKEND" Backend.parse default.backend = .ok .postgres
        ∧ url? env = none then some .missingUrl
      else none
  | .lifetime => fault? (count env "RESUME_AWAIT_TTL_SECS" default.holdSecs)
  | .capacity => fault? (count env "RESUME_AWAIT_CAPACITY" default.holdCapacity)

theorem check_eq_none_iff (c : Condition) : c.check env = none ↔ c.Holds env := by
  cases c with
  | interval | lifetime | capacity =>
      simp only [check, fault?_eq_none_iff, count_ok_iff, Holds]
  | positive => simp [check, Holds, ← count_ok_iff]
  | backend => simp only [check, fault?_eq_none_iff, backend_ok_iff, Holds]
  | transport => simp only [check, fault?_eq_none_iff, transport_ok_iff, Holds]
  | address =>
      have hgiven : (∃ url, env "DATABASE_URL" = some url ∧ url ≠ "") ↔ url? env ≠ none := by
        simp only [← url?_eq_some_iff, Option.ne_none_iff_exists']
      rw [check, Holds, hgiven, ← backend_ok_iff]
      split <;> simp_all

/-- What a failing check reports is what is wrong. -/
theorem reports_iff_of_fault {α : Type} {c : Condition} {x : Except SettingsError α}
    (hcheck : c.check env = fault? x) {e : SettingsError}
    (hreports : x = .error e ↔ c.Reports env e) :
    c.check env = some e ↔ ¬ c.Holds env ∧ c.Reports env e := by
  rw [← check_eq_none_iff, ← hreports, ← fault?_eq_some_iff, ← hcheck]
  constructor
  · intro h
    exact ⟨by simp [h], h⟩
  · exact fun h => h.2

theorem check_eq_some_iff (c : Condition) {e : SettingsError} :
    c.check env = some e ↔ ¬ c.Holds env ∧ c.Reports env e := by
  cases c with
  | interval | lifetime | capacity => exact reports_iff_of_fault rfl count_error_iff
  | backend => exact reports_iff_of_fault rfl backend_error_iff
  | transport => exact reports_iff_of_fault rfl transport_error_iff
  | positive | address =>
      rw [← check_eq_none_iff, check]
      split <;> simp [Reports, eq_comm]

end Condition

/-- The variables are refused by the first check that fails, with its error; the checks behind it do
not matter. -/
theorem ofEnvironment_error_iff {e : SettingsError} :
    ofEnvironment env = .error e ↔ Condition.all.findSome? (·.check env) = some e := by
  rw [ofEnvironment_eq]
  simp only [Condition.all, List.findSome?, Condition.check]
  cases count env "RESUME_POLL_INTERVAL_MS" default.pollIntervalMs with
  | error f => simp [bind, Except.bind]
  | ok n =>
      by_cases hn : n = 0
      · simp [bind, Except.bind, hn]
      cases choice env "RESUME_STORE_BACKEND" Backend.parse default.backend with
      | error f => simp [bind, Except.bind, hn]
      | ok b =>
          cases choice env "RESUME_EVENT_TRANSPORT" Transport.parse default.transport with
          | error f => simp [bind, Except.bind, hn]
          | ok k =>
              by_cases hb : b = .postgres ∧ url? env = none
              · simp [bind, Except.bind, hn, hb.1, hb.2]
              · cases count env "RESUME_AWAIT_TTL_SECS" default.holdSecs with
                | error f => simp [bind, Except.bind, hn, hb]
                | ok t =>
                    cases count env "RESUME_AWAIT_CAPACITY" default.holdCapacity <;>
                      simp [bind, Except.bind, hn, hb]

theorem ofEnvironment_accepts_iff :
    (∃ s, ofEnvironment env = .ok s) ↔ ∀ c : Condition, c.Holds env := by
  have hnone : (∃ s, ofEnvironment env = .ok s)
      ↔ Condition.all.findSome? (·.check env) = none := by
    rw [Option.eq_none_iff_forall_ne_some]
    simp only [ne_eq, ← ofEnvironment_error_iff]
    cases ofEnvironment env <;> simp
  rw [hnone, List.findSome?_eq_none_iff]
  refine forall_congr' fun c => ?_
  have hc : c ∈ Condition.all := by cases c <;> decide
  simp only [hc, true_imp_iff, Condition.check_eq_none_iff]

theorem bind_ok_iff {α β : Type} {x : Except SettingsError α} {f : α → Except SettingsError β}
    {b : β} : (x >>= f) = .ok b ↔ ∃ a, x = .ok a ∧ f a = .ok b := by
  cases x <;> simp [bind, Except.bind]

theorem describes_of_ok {s : Settings} (h : ofEnvironment env = .ok s) : Describes env s := by
  simp only [ofEnvironment_eq, bind_ok_iff] at h
  obtain ⟨n, hn, h⟩ := h
  split at h
  · cases h
  · simp only [bind_ok_iff] at h
    obtain ⟨b, hb, k, hk, h⟩ := h
    split at h
    · cases h
    · simp only [bind_ok_iff, Except.ok.injEq] at h
      obtain ⟨t, ht, c, hc, rfl⟩ := h
      exact ⟨count_ok_iff.mp hn, backend_ok_iff.mp hb, transport_ok_iff.mp hk,
        fun _ => url?_eq_some_iff, count_ok_iff.mp ht, count_ok_iff.mp hc, any_isOn_iff⟩

/-- The variables say one thing only, so settings that are what they say are the ones. -/
theorem Describes.unique {s s' : Settings} (h : Describes env s) (h' : Describes env s') :
    s = s' := by
  have hnumber : ∀ {name unset n m}, Numbers env name unset n → Numbers env name unset m → n = m :=
    fun hn hm => Except.ok.inj ((count_ok_iff.mpr hn).symm.trans (count_ok_iff.mpr hm))
  obtain ⟨hi, hb, hk, ha, hl, hc, hj⟩ := h
  obtain ⟨hi', hb', hk', ha', hl', hc', hj'⟩ := h'
  have hbackend := Except.ok.inj ((backend_ok_iff.mpr hb).symm.trans (backend_ok_iff.mpr hb'))
  have htransport :=
    Except.ok.inj ((transport_ok_iff.mpr hk).symm.trans (transport_ok_iff.mpr hk'))
  have haddress : s.databaseUrl = s'.databaseUrl :=
    Option.ext fun url => (ha url).trans (ha' url).symm
  have hjson : s.logJson = s'.logJson := Bool.eq_iff_iff.mpr (hj.trans hj'.symm)
  have hinterval := hnumber hi hi'
  have hlifetime := hnumber hl hl'
  have hcapacity := hnumber hc hc'
  cases s
  cases s'
  simp_all only

/-- **Which settings are accepted.** An environment is accepted exactly if all conditions hold, and
the settings are then what its variables say; otherwise the error is the one of the first condition,
in their order, that does not hold. Of settings that are accepted the interval is not zero, and
there is an address if records are kept in a database. -/
theorem ofEnvironment_follows_conditions (env : Environment) :
    ((∃ s, ofEnvironment env = .ok s) ↔ ∀ c : Condition, c.Holds env)
    ∧ (∀ s, ofEnvironment env = .ok s ↔ (∀ c : Condition, c.Holds env) ∧ Describes env s)
    ∧ (∀ e, ofEnvironment env = .error e ↔ ∃ before c after,
        Condition.all = before ++ c :: after ∧ (∀ d ∈ before, d.Holds env)
          ∧ ¬ c.Holds env ∧ c.Reports env e)
    ∧ ∀ s, ofEnvironment env = .ok s → 1 ≤ s.pollIntervalMs
        ∧ (s.backend = .postgres → ∃ url, s.databaseUrl = some url ∧ url ≠ "") := by
  refine ⟨ofEnvironment_accepts_iff, fun s => ?accepted, fun e => ?refused, fun s hs => ?sound⟩
  case accepted =>
    constructor
    · exact fun hs => ⟨ofEnvironment_accepts_iff.mp ⟨s, hs⟩, describes_of_ok hs⟩
    · rintro ⟨hall, hs⟩
      obtain ⟨s', hs'⟩ := ofEnvironment_accepts_iff.mpr hall
      rw [hs', (describes_of_ok hs').unique hs]
  case refused =>
    rw [ofEnvironment_error_iff, List.findSome?_eq_some_iff]
    refine exists_congr fun before => exists_congr fun c => exists_congr fun after =>
      and_congr_right fun _ => ?_
    simp only [Condition.check_eq_some_iff, Condition.check_eq_none_iff]
    exact and_comm
  case sound =>
    have hall := ofEnvironment_accepts_iff.mp ⟨s, hs⟩
    have hdescribes := describes_of_ok hs
    constructor
    · rw [Nat.one_le_iff_ne_zero]
      intro hzero
      exact hall .positive (hzero ▸ hdescribes.interval)
    · intro hpostgres
      obtain ⟨url, hurl⟩ := hall .address (hpostgres ▸ hdescribes.backend)
      exact ⟨url, (hdescribes.address url).mpr hurl, hurl.2⟩

/-- With no variable set the defaults are accepted. -/
example : ofEnvironment (fun _ => none) = .ok default := rfl

end Settings

end Rendezvous
