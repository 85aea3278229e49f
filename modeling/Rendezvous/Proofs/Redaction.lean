import Mathlib.Data.List.TakeWhile
import Rendezvous.Settings

/-!
# What the log shows of a database address

The settings in use are announced in the log. A database address is shown there without what stands
before its first at sign. Its user information ends at the last at sign of the authority, and a
password may have others in it, so from the first of those on the password is shown. Of two
addresses that differ in their user information alone the log shows the same exactly if the parts
that are shown do not differ (`summary_hides_iff`).
-/

namespace Rendezvous.Settings

/-- A database address with user information, as it stands in a variable. -/
def address (scheme user rest : String) : String := scheme ++ "://" ++ user ++ "@" ++ rest

/-- What is shown of user information: all from its first at sign on, which is nothing if it has
none. -/
def exposed (user : String) : List Char := user.toList.dropWhile (· ≠ '@')

theorem toList_address (scheme user rest : String) : (address scheme user rest).toList
    = (scheme.toList ++ [':', '/', '/']) ++ (user.toList ++ '@' :: rest.toList) := by
  simp only [address, String.toList_append, List.append_assoc]
  rfl

/-- The first at sign is behind the text, unless there is one in it. -/
theorem dropWhile_append_at (l m : List Char) :
    (l ++ '@' :: m).dropWhile (· ≠ '@') = l.dropWhile (· ≠ '@') ++ '@' :: m := by
  rw [List.dropWhile_append]
  split
  · rename_i h
    rw [List.isEmpty_iff.mp h]
    rfl
  · rfl

theorem exposed_eq_nil {user : String} : exposed user = [] ↔ '@' ∉ user.toList := by
  rw [exposed, List.dropWhile_eq_nil_iff]
  constructor
  · intro h hmem
    exact absurd (h '@' hmem) (by decide)
  · intro h c hc
    rw [decide_eq_true_eq]
    rintro rfl
    exact h hc

/-- User information of which something is shown is shown from an at sign on. -/
theorem exposed_cases (user : String) : exposed user = [] ∨ ∃ l, exposed user = '@' :: l := by
  have hhead := List.head?_dropWhile_not (· ≠ '@') user.toList
  unfold exposed
  cases h : user.toList.dropWhile (· ≠ '@') with
  | nil => exact .inl rfl
  | cons c l =>
      rw [h] at hhead
      obtain rfl : c = '@' := by simpa using hhead
      exact .inr ⟨l, rfl⟩

/-- An address is shown as its host, and before it what is exposed of the user information. -/
theorem redact_address {scheme : String} (hscheme : '@' ∉ scheme.toList) (user rest : String) :
    redact (some (address scheme user rest))
      = "***@" ++ String.ofList (exposed user ++ '@' :: rest.toList).tail := by
  have hhead : ∀ c ∈ scheme.toList ++ [':', '/', '/'], (decide (c ≠ '@')) = true := by
    intro c hc
    rw [decide_eq_true_eq]
    rintro rfl
    rcases List.mem_append.mp hc with hc | hc
    · exact hscheme hc
    · exact absurd hc (by decide)
  have hcut : (address scheme user rest).toList.dropWhile (· ≠ '@')
      = exposed user ++ '@' :: rest.toList := by
    rw [toList_address, List.dropWhile_append_of_pos hhead, dropWhile_append_at]
    rfl
  rw [redact, hcut]
  rcases exposed_cases user with h | ⟨l, h⟩
  · rw [h]; rfl
  · rw [h]; rfl

/-- Settings that differ in the database address are announced alike if the address is shown alike,
and only then. -/
theorem summary_eq_iff_redact (s : Settings) (url url' : Option String) :
    { s with databaseUrl := url }.summary = { s with databaseUrl := url' }.summary
      ↔ redact url = redact url' := by
  simp [summary, toString]

/-- Behind the same host the same is exposed: where something is exposed of one alone, its text is
longer. -/
theorem tail_exposed_inj {user user' : String} {host : List Char}
    (h : (exposed user ++ '@' :: host).tail = (exposed user' ++ '@' :: host).tail) :
    exposed user = exposed user' := by
  have hlength := congrArg List.length h
  rcases exposed_cases user with hu | ⟨l, hu⟩
  · rcases exposed_cases user' with hu' | ⟨l', hu'⟩
    · rw [hu, hu']
    · rw [hu, hu'] at hlength
      simp only [List.nil_append, List.cons_append, List.tail_cons, List.length_append,
        List.length_cons] at hlength
      omega
  · rcases exposed_cases user' with hu' | ⟨l', hu'⟩
    · rw [hu, hu'] at hlength
      simp only [List.nil_append, List.cons_append, List.tail_cons, List.length_append,
        List.length_cons] at hlength
      omega
    · rw [hu, hu', List.cons_append, List.cons_append, List.tail_cons, List.tail_cons,
        List.append_cancel_right_eq] at h
      rw [hu, hu', h]

/-- **What the log shows of user information.** Whatever the other settings are, two database
addresses that differ in their user information alone are announced alike exactly if their user
information is the same from its first at sign on; and of an address nothing but the host is shown
exactly if its user information has no at sign. -/
theorem summary_hides_iff (s : Settings) {scheme : String} (hscheme : '@' ∉ scheme.toList)
    (user user' rest : String) :
    ({ s with databaseUrl := some (address scheme user rest) }.summary
        = { s with databaseUrl := some (address scheme user' rest) }.summary
      ↔ exposed user = exposed user')
    ∧ (redact (some (address scheme user rest)) = "***@" ++ rest ↔ '@' ∉ user.toList) := by
  have hshown : ∀ {l m : List Char}, "***@" ++ String.ofList l = "***@" ++ String.ofList m
      ↔ l = m := by
    intro l m
    rw [String.append_right_inj, String.ofList_inj]
  rw [summary_eq_iff_redact, redact_address hscheme, redact_address hscheme, hshown,
    ← exposed_eq_nil]
  constructor
  · constructor
    · exact tail_exposed_inj
    · intro h
      rw [h]
  · rw [← String.ofList_toList (s := rest), hshown, String.toList_ofList]
    constructor
    · intro h
      have hnothing : (exposed user ++ '@' :: rest.toList).tail
          = (exposed "" ++ '@' :: rest.toList).tail := h
      exact tail_exposed_inj hnothing
    · intro h
      rw [h]
      rfl

/-- A password is hidden if it has no at sign. -/
theorem plain_password_hidden :
    '@' ∉ "postgres".toList
    ∧ { default with databaseUrl := some (address "postgres" "app:secret" "db/resume") }.summary
      = { default with databaseUrl := some (address "postgres" "ops" "db/resume") }.summary
    ∧ redact (some (address "postgres" "app:secret" "db/resume")) = "***@db/resume" := by
  have hscheme : '@' ∉ "postgres".toList := by simp
  obtain ⟨hsame, hhost⟩ := summary_hides_iff default hscheme "app:secret" "ops" "db/resume"
  exact ⟨hscheme, hsame.mpr (by simp [exposed]), hhost.mpr (by simp)⟩

/-- Of a password with an at sign the log shows the rest, which is what the exact condition leaves
open. -/
theorem password_shown :
    (∀ c ∈ ['/', '?', '#'], c ∉ "app:p@ss".toList ∧ c ∉ "app:p@th".toList)
    ∧ '@' ∉ "db/resume".toList
    ∧ { default with databaseUrl := some (address "postgres" "app:p@ss" "db/resume") }.summary
      ≠ { default with databaseUrl := some (address "postgres" "app:p@th" "db/resume") }.summary
    ∧ redact (some (address "postgres" "app:p@ss" "db/resume")) = "***@ss@db/resume" := by
  refine ⟨by simp, by simp, fun h => ?_, by decide⟩
  rw [summary_eq_iff_redact] at h
  exact absurd h (by decide)

end Rendezvous.Settings
