import NanoHat.Status.ServiceConfig

/-!
# The names in `MONITORED_SERVICES`

The grammar of the list of services, and when `service_config_init` follows it: the text is copied to
a buffer of 256 bytes first, so that what the buffer ends with may be the beginning of a token
(`parsed_iff`).
-/

namespace NanoHat.ServiceConfig

open UbusHal

/-! ## The grammar -/

/-- A token without the blanks around it. -/
def strip (token : CStr) : CStr := (token.dropWhile isBlank).rdropWhile isBlank

/-- A name that is not empty and that an entry has room for. -/
def Fits (name : CStr) : Prop := 0 < name.length ∧ name.length < serviceNameMaxLen

instance (name : CStr) : Decidable (Fits name) := inferInstanceAs (Decidable (_ ∧ _))

/-- The names among the tokens of a text. -/
def names (s : CStr) : List CStr := ((s.splitOn ',').map strip).filter Fits

/-- The names that a text configures. -/
def configured (s : CStr) : List CStr := (names s).take maxMonitoredServices

theorem names_append_comma (s t : CStr) : names (s ++ ',' :: t) = names s ++ names t := by
  unfold names
  rw [List.splitOn_append_cons_self, List.map_append, List.filter_append]

theorem names_nil : names [] = [] := rfl

/-- A text without commas is one token. -/
theorem names_of_notMem {s : CStr} (h : ',' ∉ s) : (names s).length ≤ 1 := by
  unfold names
  rw [List.splitOn_eq_singleton h]
  exact List.length_filter_le _ _

/-- Every name is a token of the text, as a whole. -/
theorem token_of_configured {s name : CStr} (h : name ∈ configured s) :
    ∃ token ∈ s.splitOn ',', strip token = name :=
  List.mem_map.1 (List.mem_of_mem_filter (List.mem_of_mem_take h))

/-! ## The parser -/

theorem addToken_eq {services : List CStr} (h : services.length ≤ maxMonitoredServices)
    (token : CStr) : addToken services token =
      (services ++ [strip token].filter Fits).take maxMonitoredServices := by
  have hturn : addToken services token =
      if services.length < maxMonitoredServices then
        if Fits (strip token) then services ++ [strncpy serviceNameMaxLen (strip token)]
        else services
      else services := rfl
  rw [hturn]
  by_cases hfull : services.length < maxMonitoredServices
  · rw [if_pos hfull]
    by_cases hfits : Fits (strip token)
    · rw [if_pos hfits, List.filter_cons_of_pos (by simpa using hfits), List.filter_nil,
        strncpy, List.take_of_length_le (Nat.le_sub_one_of_lt hfits.2), List.take_of_length_le]
      rw [List.length_append]
      exact hfull
    · rw [if_neg hfits, List.filter_cons_of_neg (by simpa using hfits), List.filter_nil,
        List.append_nil, List.take_of_length_le h]
  · have heq : services.length = maxMonitoredServices := by omega
    rw [if_neg hfull, ← heq, List.take_left]

theorem length_take_le (l : List CStr) :
    (l.take maxMonitoredServices).length ≤ maxMonitoredServices := by
  rw [List.length_take]
  exact Nat.min_le_left _ _

/-- What is cut off between two turns does not come back. -/
theorem take_take_append (l l' : List CStr) (n : ℕ) :
    ((l.take n) ++ l').take n = (l ++ l').take n := by
  rw [List.take_append, List.take_append, List.take_take, Nat.min_self, List.length_take]
  rcases Nat.le_total n l.length with hle | hle
  · rw [Nat.min_eq_left hle, Nat.sub_self, Nat.sub_eq_zero_of_le hle]
  · rw [Nat.min_eq_right hle]

theorem foldl_addToken (tokens : List CStr) {services : List CStr}
    (h : services.length ≤ maxMonitoredServices) : tokens.foldl addToken services =
      (services ++ (tokens.map strip).filter Fits).take maxMonitoredServices := by
  induction tokens generalizing services with
  | nil =>
    rw [List.foldl_nil, List.map_nil, List.filter_nil, List.append_nil, List.take_of_length_le h]
  | cons token tokens ih =>
    rw [List.foldl_cons, addToken_eq h, ih (length_take_le _), take_take_append, List.append_assoc,
      ← List.filter_append]
    rfl

/-- `strtok_r` skips empty tokens, which have no name. -/
theorem filter_strtok (s : CStr) : ((strtok s).map strip).filter Fits = names s := by
  unfold strtok names
  induction s.splitOn ',' with
  | nil => rfl
  | cons token tokens ih =>
    by_cases hnil : token = []
    · subst hnil
      exact ih
    · rw [List.filter_cons_of_pos (by simpa using hnil), List.map_cons, List.map_cons,
        List.filter_cons, List.filter_cons, ih]

/-- The parser follows the grammar of what is in the buffer. -/
theorem serviceConfigInit_eq (s : CStr) : serviceConfigInit s = configured (strncpy 256 s) := by
  unfold serviceConfigInit configured
  rw [foldl_addToken _ (Nat.zero_le _), filter_strtok]
  rfl

/-! ## The end of the buffer -/

/-- The tokens of which the buffer holds the comma after them. -/
def whole (s : CStr) : CStr := (strncpy 256 s).rdropWhile (· ≠ ',')

/-- What the buffer holds of the token that it ends with. -/
def fragment (s : CStr) : CStr := (strncpy 256 s).rtakeWhile (· ≠ ',')

/-- The text from the token on that the buffer ends with. -/
def rest (s : CStr) : CStr := fragment s ++ s.drop 255

/-- The entries that the tokens before it leave free. -/
def freeEntries (s : CStr) : ℕ := maxMonitoredServices - (names (whole s)).length

/-- The end of the buffer makes no difference: the buffer holds the text, or there are eight names
before its last token, or the names in the rest of the text that the free entries take are just that
of the last token in the buffer. -/
def Uncut (s : CStr) : Prop :=
  s.length < 256 ∨ freeEntries s = 0 ∨ (names (rest s)).take (freeEntries s) = names (fragment s)

instance (s : CStr) : Decidable (Uncut s) := inferInstanceAs (Decidable (_ ∨ _))

theorem buffer_eq (s : CStr) : strncpy 256 s = whole s ++ fragment s :=
  (List.rdropWhile_append_rtakeWhile ..).symm

theorem text_eq (s : CStr) : s = whole s ++ rest s := by
  rw [rest, ← List.append_assoc, ← buffer_eq]
  exact (List.take_append_drop 255 s).symm

/-- The whole tokens end with a comma. -/
theorem names_whole_append (s t : CStr) : names (whole s ++ t) = names (whole s) ++ names t := by
  by_cases hnil : whole s = []
  · rw [hnil, names_nil, List.nil_append, List.nil_append]
  · have hlast : (whole s).getLast hnil = ',' := by
      have h : ¬decide ((whole s).getLast hnil ≠ ',') = true :=
        List.rdropWhile_last_not _ (strncpy 256 s) hnil
      simpa using h
    obtain ⟨l, hl⟩ : ∃ l, whole s = l ++ [','] :=
      ⟨(whole s).dropLast, by rw [← hlast, List.dropLast_append_getLast]⟩
    rw [hl, List.append_assoc, List.singleton_append, names_append_comma, names_append_comma,
      names_nil, List.append_nil]

theorem length_names_fragment (s : CStr) : (names (fragment s)).length ≤ 1 :=
  names_of_notMem fun h => by simpa using List.mem_rtakeWhile_imp h

/-- The two lists of names differ in what the free entries take. -/
theorem serviceConfigInit_eq_iff (s : CStr) : serviceConfigInit s = configured s ↔
    (names (fragment s)).take (freeEntries s) = (names (rest s)).take (freeEntries s) := by
  have htext : names s = names (whole s) ++ names (rest s) := by
    have h := names_whole_append s (rest s)
    rwa [← text_eq] at h
  rw [serviceConfigInit_eq, configured, configured, htext, buffer_eq, names_whole_append,
    List.take_append, List.take_append, List.append_cancel_left_eq]
  rfl

/-- **The parser and the grammar.** The configuration is what the grammar says, and every name is a
token of the text as a whole, precisely if the end of the buffer makes no difference. -/
theorem parsed_iff (s : CStr) :
    (serviceConfigInit s = configured s ∧
      ∀ name ∈ serviceConfigInit s, ∃ token ∈ s.splitOn ',', strip token = name) ↔ Uncut s := by
  have hexact : serviceConfigInit s = configured s ↔ Uncut s := by
    rw [serviceConfigInit_eq_iff]
    constructor
    · intro h
      by_cases hfree : freeEntries s = 0
      · exact Or.inr (Or.inl hfree)
      · have hle := length_names_fragment s
        rw [List.take_of_length_le (by omega)] at h
        exact Or.inr (Or.inr h.symm)
    · rintro (hshort | hfree | hsame)
      · rw [rest, List.drop_eq_nil_of_le (by omega), List.append_nil]
      · rw [hfree, List.take_zero, List.take_zero]
      · rw [← hsame, List.take_take, Nat.min_self]
  rw [← hexact]
  refine ⟨And.left, fun h => ⟨h, fun name hname => ?_⟩⟩
  rw [h] at hname
  exact token_of_configured hname

/-- The failing input: a token that starts within the buffer and ends after it. -/
theorem fragment_configured :
    let s : CStr := List.replicate 250 ' ' ++ "abcdefghij".toList
    configured s = ["abcdefghij".toList] ∧ serviceConfigInit s = ["abcde".toList] ∧
      ¬∃ token ∈ s.splitOn ',', strip token = "abcde".toList := by
  decide +kernel

end NanoHat.ServiceConfig
