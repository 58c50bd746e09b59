import ProbeNet.Proofs.Text.Numerals
import ProbeNet.Settings.Override

/-!
# What overrides do to the settings

The variables are looked at one after the other.  There are three groups.

* What an override comes to.  `Overridden given s s'` relates the settings before and after:
  those of the given variables are as their texts say and all others as they were, and such
  steps can be put together (`Overridden.trans`).  `Accepts` says, without the readers, that a
  variable is no reason to stop.
* One variable.  `applies_applyKey` says that it is applied, or that it is refused and named.
* Several variables.  `applyKeys_outcomes` is a run over any list of them: all are applied, or
  those in front of the first that is refused.  `applyKeys_congr_of_refused` says that those
  behind it are not looked at.

`overrides_apply_in_order` is the run over the five variables that there are.
-/

namespace ProbeNet

namespace Settings

/-! ## What an override comes to -/

/-- A setting after its variable was looked at: as the text says, or as it was if there is none. -/
def Replaced {α : Type} (means : String → α → Prop) (text? : Option String) (old new : α) : Prop :=
  match text? with
  | none => new = old
  | some text => means text new

/-- The settings `s'` are those of `s`, with what the given variables say in place of their
settings. -/
structure Overridden (given : String → Option String) (s s' : Settings) : Prop where
  maxPacketLen :
    Replaced Text.Gives (given maxPacketLenKey) s.link.maxPacketLen s'.link.maxPacketLen
  address :
    Replaced (fun text (a : Address) => Text.Gives text a.toNat) (given addressKey)
      s.host.address s'.host.address
  registerTimeoutMs :
    Replaced Text.Gives (given registerTimeoutKey) s.host.registerTimeoutMs
      s'.host.registerTimeoutMs
  listen : Replaced Eq (given listenKey) s.network.listen s'.network.listen
  target : Replaced Eq (given targetKey) s.network.target s'.network.target
  others : s' = { s with
    link.maxPacketLen := s'.link.maxPacketLen
    host.address := s'.host.address
    host.registerTimeoutMs := s'.host.registerTimeoutMs
    network := s'.network }

/-- The variables that are set, of the listed ones. -/
def among (keys : List String) (lookup : String → Option String) (key : String) : Option String :=
  if key ∈ keys then lookup key else none

/-- The least number that is too large for a variable, if it is one that gives a number. -/
def limit? (key : String) : Option Nat :=
  if key = maxPacketLenKey then some (2 ^ 64)
  else if key = addressKey then some (Address.max + 1)
  else if key = registerTimeoutKey then some (2 ^ 64)
  else none

/-- The text is what the setting of the variable needs. -/
def Admits (key text : String) : Prop :=
  ∀ limit, limit? key = some limit → ∃ n < limit, Text.Gives text n

/-- The variable is not set, or set to what its setting needs. -/
def Accepts (lookup : String → Option String) (key : String) : Prop :=
  ∀ text, lookup key = some text → Admits key text

variable {lookup : String → Option String} {key text : String} {s s₁ s₂ : Settings}

theorem Replaced.trans {α : Type} {means : String → α → Prop} {t₁ t₂ : Option String} {a b c : α}
    (h₁ : Replaced means t₁ a b) (h₂ : Replaced means t₂ b c) : Replaced means (t₂.or t₁) a c := by
  cases t₂ with
  | none =>
    obtain rfl : c = b := h₂
    exact h₁
  | some _ => exact h₂

theorem Overridden.refl (s : Settings) : Overridden (fun _ => none) s s :=
  ⟨rfl, rfl, rfl, rfl, rfl, rfl⟩

theorem Overridden.trans {g₁ g₂ : String → Option String} (h₁ : Overridden g₁ s s₁)
    (h₂ : Overridden g₂ s₁ s₂) : Overridden (fun key => (g₂ key).or (g₁ key)) s s₂ where
  maxPacketLen := h₁.maxPacketLen.trans h₂.maxPacketLen
  address := h₁.address.trans h₂.address
  registerTimeoutMs := h₁.registerTimeoutMs.trans h₂.registerTimeoutMs
  listen := h₁.listen.trans h₂.listen
  target := h₁.target.trans h₂.target
  others := by
    -- the five settings of `s₁` in the second step are written over by those of `s₂`
    have hs₁ := h₁.others
    have hs₂ := h₂.others
    rw [hs₁] at hs₂
    exact hs₂

/-- What a variable holds does not change in a run, so that it does not matter whether the first
variable is listed again. -/
theorem among_cons (keys : List String) (lookup : String → Option String) (key : String) :
    among (key :: keys) lookup = fun k => (among keys lookup k).or (among [key] lookup k) := by
  funext k
  unfold among
  by_cases hkeys : k ∈ keys
  · by_cases hkey : k ∈ [key] <;> simp [hkeys, hkey]
  · simp [hkeys]

/-! ## One variable -/

/-- Reading comes to what the text gives, if that is a number below the limit, and otherwise to an
error that names the variable.  `number` is the number in what was read. -/
def Reads {α : Type} (key text : String) (limit : Nat) (number : α → Nat)
    (outcome : Except OverrideError α) : Prop :=
  (∃ a, number a < limit ∧ Text.Gives text (number a) ∧ outcome = .ok a) ∨
    (¬ ∃ n < limit, Text.Gives text n) ∧ ∃ e, outcome = .error e ∧ e.key = key

/-- A look at a variable that is set comes to settings with its value, if its text is what its
setting needs, and otherwise to an error that names it. -/
def Applies (lookup : String → Option String) (key text : String) (s : Settings)
    (outcome : Except OverrideError Settings) : Prop :=
  (Admits key text ∧ ∃ s', outcome = .ok s' ∧ Overridden (among [key] lookup) s s') ∨
    ¬ Admits key text ∧ ∃ e, outcome = .error e ∧ e.key = key

theorem reads_readNumber (key text : String) {bound : Nat} (hbound : bound ≤ 2 ^ 64) :
    Reads key text bound id (readNumber key bound text) := by
  have hread (n : Nat) : Numeral.readPrefixed (1 <<< 64) (Text.trim text) = .ok n ↔
      Text.Gives text n ∧ n < 2 ^ 64 := Text.readPrefixed_trim_eq_ok_iff (by decide)
  unfold readNumber
  dsimp only
  split
  · next n hraw =>
    have hgives : Text.Gives text n := ((hread n).mp hraw).1
    by_cases hlt : n < bound
    · exact .inl ⟨n, hlt, hgives, if_pos hlt⟩
    · refine .inr ⟨?_, _, if_neg hlt, rfl⟩
      rintro ⟨m, hm, hgives'⟩
      exact hlt (hgives'.unique hgives ▸ hm)
  · next hraw =>
    refine .inr ⟨?_, _, rfl, rfl⟩
    rintro ⟨n, hlt, hgives⟩
    cases hraw.symm.trans ((hread n).mpr ⟨hgives, hlt.trans_le hbound⟩)

/-- A number that is read as an address is not cut to its ten bits. -/
theorem reads_readAddress (key text : String) :
    Reads key text (Address.max + 1) BitVec.toNat (readAddress key text) := by
  unfold readAddress
  rcases reads_readNumber key text (show 1 <<< 16 ≤ 2 ^ 64 by decide) with
    ⟨n, -, (hgives : Text.Gives text n), hn⟩ | ⟨hnone, e, he, hkey⟩
  · rw [hn]
    by_cases hmax : n ≤ Address.max
    · have ha : (BitVec.ofNat 10 n).toNat = n := Nat.mod_eq_of_lt (Nat.lt_succ_of_le hmax)
      have hofNat : Address.ofNat n = .ok (BitVec.ofNat 10 n) := if_pos hmax
      refine .inl ⟨BitVec.ofNat 10 n, BitVec.isLt _, ha.symm ▸ hgives, ?_⟩
      simp only [bind, Except.bind, hofNat]
    · have hofNat : Address.ofNat n = .error (.addressOutOfRange n) := if_neg hmax
      refine .inr ⟨?_, { key, text := (PacketError.addressOutOfRange n).message }, ?_, rfl⟩
      · rintro ⟨m, hm, hgives'⟩
        exact hmax (hgives'.unique hgives ▸ Nat.le_of_lt_succ hm)
      · simp only [bind, Except.bind, hofNat]
  · rw [he]
    refine .inr ⟨?_, e, rfl, hkey⟩
    rintro ⟨n, hn, hgives⟩
    exact hnone ⟨n, hn.trans (by decide), hgives⟩

/-- A variable that gives a number is applied when its number can be read. -/
theorem applies_of_reads {α : Type} {limit : Nat} {number : α → Nat}
    {outcome : Except OverrideError α} {set : α → Settings} (hlimit : limit? key = some limit)
    (hread : Reads key text limit number outcome)
    (hset : ∀ a, Text.Gives text (number a) → Overridden (among [key] lookup) s (set a)) :
    Applies lookup key text s (outcome >>= fun a => .ok (set a)) := by
  have hadmits : Admits key text ↔ ∃ n < limit, Text.Gives text n := by simp [Admits, hlimit]
  rw [Applies, hadmits]
  rcases hread with ⟨a, hlt, hgives, rfl⟩ | ⟨hnone, e, rfl, hkey⟩
  · exact .inl ⟨⟨number a, hlt, hgives⟩, set a, rfl, hset a hgives⟩
  · exact .inr ⟨hnone, e, rfl, hkey⟩

theorem applies_of_text (hlimit : limit? key = none)
    (hset : Overridden (among [key] lookup) s s₁) : Applies lookup key text s (.ok s₁) := by
  refine .inl ⟨fun limit hsome => ?_, s₁, rfl, hset⟩
  cases hlimit.symm.trans hsome

/-- In each case only the setting of the variable itself is written. -/
theorem applies_applyKey (h : lookup key = some text) (s : Settings) :
    Applies lookup key text s (applyKey key text s) := by
  unfold applyKey
  split_ifs with hmax haddress htimeout hlisten htarget
  · subst hmax
    refine applies_of_reads rfl (reads_readNumber _ text (by decide))
      fun n (hgives : Text.Gives text n) => ?_
    constructor <;> simp +decide [among, h, Replaced, hgives]
  · subst haddress
    refine applies_of_reads rfl (reads_readAddress _ text) fun a hgives => ?_
    constructor <;> simp +decide [among, h, Replaced, hgives]
  · subst htimeout
    refine applies_of_reads rfl (reads_readNumber _ text (by decide))
      fun n (hgives : Text.Gives text n) => ?_
    constructor <;> simp +decide [among, h, Replaced, hgives]
  · subst hlisten
    refine applies_of_text rfl ?_
    constructor <;> simp +decide [among, h, Replaced]
  · subst htarget
    refine applies_of_text rfl ?_
    constructor <;> simp +decide [among, h, Replaced]
  · -- a variable that stands for no setting changes none
    refine applies_of_text (by simp [limit?, hmax, haddress, htimeout]) ?_
    constructor <;> simp_all [among, Replaced, eq_comm]

/-! ## Several variables -/

theorem among_singleton_of_none (h : lookup key = none) : among [key] lookup = fun _ => none := by
  funext k
  unfold among
  by_cases hk : k ∈ [key]
  · rw [if_pos hk, List.mem_singleton.mp hk, h]
  · exact if_neg hk

/-- The first variable of a run lets the others be looked at, or it ends the run. -/
theorem applyKeys_cons_outcomes (lookup : String → Option String) (key : String) (s : Settings) :
    (Accepts lookup key ∧ ∃ s₁, Overridden (among [key] lookup) s s₁ ∧
      ∀ keys, applyKeys lookup (key :: keys) s = applyKeys lookup keys s₁) ∨
      ¬ Accepts lookup key ∧ ∃ e : OverrideError, e.key = key ∧
        ∀ keys, applyKeys lookup (key :: keys) s = (s, some e) := by
  cases h : lookup key with
  | none =>
    refine .inl ⟨fun text htext => ?_, s, ?_, fun keys => by rw [applyKeys, h]⟩
    · cases h.symm.trans htext
    · rw [among_singleton_of_none h]
      exact .refl s
  | some text =>
    have haccepts : Accepts lookup key ↔ Admits key text := by simp [Accepts, h]
    rw [haccepts]
    rcases applies_applyKey h s with ⟨hadmits, s₁, hs₁, hover⟩ | ⟨hrefused, e, he, hkey⟩
    · exact .inl ⟨hadmits, s₁, hover, fun keys => by simp only [applyKeys, h, hs₁]⟩
    · exact .inr ⟨hrefused, e, hkey, fun keys => by simp only [applyKeys, h, he]⟩

/-- A run over a list of variables applies all of them, or all in front of the first that is
refused. -/
theorem applyKeys_outcomes (lookup : String → Option String) (keys : List String) (s : Settings) :
    ((∀ key ∈ keys, Accepts lookup key) ∧
      ∃ s', applyKeys lookup keys s = (s', none) ∧ Overridden (among keys lookup) s s') ∨
      ∃ before key after, keys = before ++ key :: after ∧ (∀ k ∈ before, Accepts lookup k) ∧
        ¬ Accepts lookup key ∧ ∃ s' e, applyKeys lookup keys s = (s', some e) ∧ e.key = key ∧
          Overridden (among before lookup) s s' := by
  induction keys generalizing s with
  | nil => exact .inl ⟨by simp, s, rfl, .refl s⟩
  | cons key keys ih =>
    rcases applyKeys_cons_outcomes lookup key s with
      ⟨haccepts, s₁, hover, hrun⟩ | ⟨hrefused, e, hkey, hrun⟩
    · rw [hrun keys]
      rcases ih s₁ with ⟨hall, s', hs', hrest⟩ |
        ⟨before, k, after, rfl, hbefore, hk, s', e, hs', hkey, hrest⟩
      · refine .inl ⟨List.forall_mem_cons.mpr ⟨haccepts, hall⟩, s', hs', ?_⟩
        rw [among_cons]
        exact hover.trans hrest
      · refine .inr ⟨key :: before, k, after, rfl, List.forall_mem_cons.mpr ⟨haccepts, hbefore⟩, hk,
          s', e, hs', hkey, ?_⟩
        rw [among_cons]
        exact hover.trans hrest
    · exact .inr ⟨[], key, keys, rfl, by simp, hrefused, s, e, hrun keys, hkey, .refl s⟩

theorem applyKeys_eq_none_iff (lookup : String → Option String) (keys : List String)
    (s : Settings) :
    (applyKeys lookup keys s).2 = none ↔ ∀ key ∈ keys, Accepts lookup key := by
  rcases applyKeys_outcomes lookup keys s with
    ⟨hall, s', hs', -⟩ | ⟨before, key, after, rfl, -, hkey, s', e, hs', -, -⟩
  · exact iff_of_true (by rw [hs']) hall
  · exact iff_of_false (by simp [hs']) fun h => hkey (h key (by simp))

/-- A run that has ended looks at no other variable. -/
theorem applyKeys_append_of_error {keys : List String} {s s' : Settings} {e : OverrideError}
    (h : applyKeys lookup keys s = (s', some e)) (more : List String) :
    applyKeys lookup (keys ++ more) s = (s', some e) := by
  induction keys generalizing s with
  | nil => cases h
  | cons key keys ih =>
    rcases applyKeys_cons_outcomes lookup key s with ⟨-, s₁, -, hrun⟩ | ⟨-, e', -, hrun⟩
    · rw [List.cons_append, hrun (keys ++ more)]
      exact ih ((hrun keys).symm.trans h)
    · rw [List.cons_append, hrun (keys ++ more), ← hrun keys]
      exact h

theorem applyKeys_congr {other : String → Option String} {keys : List String}
    (h : ∀ key ∈ keys, other key = lookup key) (s : Settings) :
    applyKeys other keys s = applyKeys lookup keys s := by
  induction keys generalizing s with
  | nil => rfl
  | cons key keys ih =>
    obtain ⟨hkey, hkeys⟩ := List.forall_mem_cons.mp h
    simp only [applyKeys, hkey, ih hkeys]

/-- Only the variables up to the first that is refused decide. -/
theorem applyKeys_congr_of_refused {other : String → Option String} {before : List String}
    (hkey : ¬ Accepts lookup key) (h : ∀ k ∈ before ++ [key], other k = lookup k)
    (after : List String) (s : Settings) :
    applyKeys other (before ++ key :: after) s = applyKeys lookup (before ++ key :: after) s := by
  have hrefused : (applyKeys lookup (before ++ [key]) s).2 ≠ none := fun hnone =>
    hkey ((applyKeys_eq_none_iff lookup _ s).mp hnone key (by simp))
  obtain ⟨e, he⟩ := Option.ne_none_iff_exists'.mp hrefused
  have hrun : applyKeys lookup (before ++ [key]) s =
      ((applyKeys lookup (before ++ [key]) s).1, some e) := Prod.ext rfl he
  rw [List.append_cons, applyKeys_append_of_error hrun,
    applyKeys_append_of_error ((applyKeys_congr h s).trans hrun)]

/-! ## The five variables -/

theorem Overridden.of_among (h : Overridden (among overrideKeys lookup) s s₁) :
    Overridden lookup s s₁ where
  maxPacketLen := h.maxPacketLen
  address := h.address
  registerTimeoutMs := h.registerTimeoutMs
  listen := h.listen
  target := h.target
  others := h.others

theorem forall_accepts_iff : (∀ key ∈ overrideKeys, Accepts lookup key) ↔
    (∀ text, lookup maxPacketLenKey = some text → ∃ n < 2 ^ 64, Text.Gives text n) ∧
    (∀ text, lookup addressKey = some text → ∃ n ≤ Address.max, Text.Gives text n) ∧
    (∀ text, lookup registerTimeoutKey = some text → ∃ n < 2 ^ 64, Text.Gives text n) := by
  simp only [← Nat.lt_add_one_iff]
  constructor
  · intro h
    exact ⟨fun text htext => h maxPacketLenKey (by decide) text htext _ rfl,
      fun text htext => h addressKey (by decide) text htext _ rfl,
      fun text htext => h registerTimeoutKey (by decide) text htext _ rfl⟩
  · rintro ⟨hmax, haddress, htimeout⟩ key - text htext limit hlimit
    unfold limit? at hlimit
    split_ifs at hlimit with h₁ h₂ h₃
    · cases hlimit
      exact hmax text (h₁ ▸ htext)
    · cases hlimit
      exact haddress text (h₂ ▸ htext)
    · cases hlimit
      exact htimeout text (h₃ ▸ htext)

/-- The variables are looked at in their order, and the first whose text is not what its setting
needs ends the work.

Nothing is refused if and only if each of the three that give numbers is unset or gives one that its
setting can hold, as a numeral in decimal or in hexadecimal behind `0x`, with blanks around it or
without.  The settings are then as they were, but for those of the variables that are set, which
are as their texts say.

Otherwise the error names the first variable that is refused.  Those in front of it have been
applied, its own setting and all others are as they were, and what the variables behind it hold
makes no difference.  The address is one of ten bits at any rate. -/
theorem overrides_apply_in_order (lookup : String → Option String) (s : Settings) :
    ((applyOverrides lookup s).2 = none ↔
      (∀ text, lookup maxPacketLenKey = some text → ∃ n < 2 ^ 64, Text.Gives text n) ∧
      (∀ text, lookup addressKey = some text → ∃ n ≤ Address.max, Text.Gives text n) ∧
      (∀ text, lookup registerTimeoutKey = some text → ∃ n < 2 ^ 64, Text.Gives text n)) ∧
    ((applyOverrides lookup s).2 = none → Overridden lookup s (applyOverrides lookup s).1) ∧
    (∀ e, (applyOverrides lookup s).2 = some e → ∃ before after,
      [maxPacketLenKey, addressKey, registerTimeoutKey, listenKey, targetKey] =
        before ++ e.key :: after ∧
      e.key ∉ before ∧ (∀ key ∈ before, Accepts lookup key) ∧ ¬ Accepts lookup e.key ∧
      Overridden (among before lookup) s (applyOverrides lookup s).1 ∧
      ∀ other : String → Option String, (∀ key ∈ before ++ [e.key], other key = lookup key) →
        applyOverrides other s = applyOverrides lookup s) ∧
    (applyOverrides lookup s).1.host.address.toNat ≤ Address.max := by
  refine ⟨(applyKeys_eq_none_iff lookup overrideKeys s).trans forall_accepts_iff, ?_, ?_,
    Nat.le_of_lt_succ (BitVec.isLt _)⟩
  · intro hnone
    rcases applyKeys_outcomes lookup overrideKeys s with
      ⟨-, s', hs', hover⟩ | ⟨-, -, -, -, -, -, s', e, hs', -, -⟩
    · rw [applyOverrides, hs']
      exact hover.of_among
    · rw [applyOverrides, hs'] at hnone
      cases hnone
  · intro e he
    rcases applyKeys_outcomes lookup overrideKeys s with
      ⟨-, s', hs', -⟩ | ⟨before, key, after, hkeys, hbefore, hrefused, s', e', hs', rfl, hover⟩
    · rw [applyOverrides, hs'] at he
      cases he
    · have hdistinct : (before ++ e'.key :: after).Nodup := hkeys ▸ (by decide : overrideKeys.Nodup)
      rw [applyOverrides, hs'] at he
      cases he
      refine ⟨before, after, hkeys, ?_, hbefore, hrefused, ?_, fun other hother => ?_⟩
      · exact fun h => (List.nodup_append.mp hdistinct).2.2 _ h _ List.mem_cons_self rfl
      · rw [applyOverrides, hs']
        exact hover
      · rw [applyOverrides, applyOverrides, hkeys]
        exact applyKeys_congr_of_refused hrefused hother after s

/-- A length behind blanks, an address out of range and a time in words: the address is named, and
the length is set by then. -/
theorem overrides_apply_in_order_address :
    ∃ lookup : String → Option String,
      lookup maxPacketLenKey = some " 0x+10\t" ∧ lookup addressKey = some "0x400" ∧
      lookup registerTimeoutKey = some "soon" ∧
      ∃ e, (applyOverrides lookup {}).2 = some e ∧ e.key = addressKey ∧
        (applyOverrides lookup {}).1 = { link.maxPacketLen := 16 } ∧
        ∃ before after,
          [maxPacketLenKey, addressKey, registerTimeoutKey, listenKey, targetKey] =
            before ++ e.key :: after ∧
          ¬ Accepts lookup e.key ∧
          Overridden (among before lookup) {} (applyOverrides lookup {}).1 := by
  have hrun : applyOverrides (fun key =>
      if key = maxPacketLenKey then some " 0x+10\t" else if key = addressKey then some "0x400"
      else some "soon") {} = ({ link.maxPacketLen := 16 },
      some { key := addressKey, text := "address 0x0400 does not fit in 10 bits" }) := by
    decide +kernel
  have herror := congrArg Prod.snd hrun
  obtain ⟨before, after, hkeys, -, -, hrefused, hover, -⟩ :=
    (overrides_apply_in_order _ {}).2.2.1 _ herror
  exact ⟨_, rfl, rfl, rfl, _, herror, rfl, congrArg Prod.fst hrun, before, after, hkeys, hrefused,
    hover⟩

end Settings

end ProbeNet
