import Libsoup.Misc.Settings

namespace libsoup.misc

/-- A step on the allow/deny globals that never reads `allow_policy`: its
    result and the lists it leaves are the same under every policy, and the
    policy it leaves is one it sets (`some`) or the one it found (`none`). -/
def PolicyBlind {α : Type} (F : AllowDeny → α × AllowDeny) : Prop :=
  ∀ s, ∃ c : Option Bool, ∀ p,
    F { s with allow_policy := p } = ((F s).1, { (F s).2 with allow_policy := c.getD p })

theorem addTokens_policy (isAllow : Bool) : ∀ (toks : List (List UInt8)) (s : AllowDeny),
    ∃ c : Option Bool, ∀ p,
      addTokens isAllow toks { s with allow_policy := p } =
        { addTokens isAllow toks s with allow_policy := c.getD p }
  | [], _ => ⟨none, fun _ => rfl⟩
  | tok :: toks, s => by
    by_cases hall : g_strcasecmp tok (bytesOf "all") = 0
    · exact ⟨some (s.headIsAllow isAllow), fun p => by simp only [addTokens, hall]; cases isAllow <;> rfl⟩
    · obtain ⟨c, h⟩ := addTokens_policy isAllow toks (s.setList isAllow (some tok :: s.list isAllow))
      refine ⟨c, fun p => ?_⟩
      simp only [addTokens, hall, if_false, ← h p]
      cases isAllow <;> rfl

theorem soup_config_allow_deny_policyBlind (key : List UInt8) : PolicyBlind (soup_config_allow_deny key) :=
  fun s => by
    by_cases hallow : g_strncasecmp (g_strchomp key) (bytesOf "allow") 5 = 0
    · obtain ⟨c, h⟩ := addTokens_policy true (g_strsplit (g_strchomp key) 0x20 0).tail s
      exact ⟨c, fun p => by simp only [soup_config_allow_deny, hallow, if_true, h p]⟩
    by_cases hdeny : g_strncasecmp (g_strchomp key) (bytesOf "deny") 4 = 0
    · obtain ⟨c, h⟩ := addTokens_policy false (g_strsplit (g_strchomp key) 0x20 0).tail s
      exact ⟨c, fun p => by simp only [soup_config_allow_deny, hallow, hdeny, if_true, if_false, h p]⟩
    · exact ⟨none, fun p => by simp only [soup_config_allow_deny, hallow, hdeny, if_false]; rfl⟩

/-- A line of the system file: `admin` is set, so no line is checked against
    the lists, and only `allow` and `deny` lines change the globals. -/
theorem configLine_admin (buf : List UInt8) (s : AllowDeny) :
    configLine true buf s =
      if g_strstrip buf = [] ∨ (g_strstrip buf).head? = some 0x23 then (.skipped, s)
      else if (soup_config_allow_deny ((g_strstrip buf).takeWhile (· ≠ 0x23)) s).1 then
        (.allow_deny, (soup_config_allow_deny ((g_strstrip buf).takeWhile (· ≠ 0x23)) s).2)
      else (configItem ((g_strstrip buf).takeWhile (· ≠ 0x23)), s) := by
  unfold configLine
  dsimp only
  generalize soup_config_allow_deny ((g_strstrip buf).takeWhile (· ≠ 0x23)) s = r
  obtain ⟨_ | _, _⟩ := r <;> rfl

theorem configLine_policyBlind (buf : List UInt8) : PolicyBlind (configLine true buf) := fun s => by
  by_cases hskip : g_strstrip buf = [] ∨ (g_strstrip buf).head? = some 0x23
  · exact ⟨none, fun _ => by simp only [configLine_admin, hskip, if_true]; rfl⟩
  obtain ⟨c, h⟩ := soup_config_allow_deny_policyBlind ((g_strstrip buf).takeWhile (· ≠ 0x23)) s
  by_cases hkey : (soup_config_allow_deny ((g_strstrip buf).takeWhile (· ≠ 0x23)) s).1
  · exact ⟨c, fun p => by simp only [configLine_admin, hskip, h p, hkey, if_true, if_false]⟩
  · exact ⟨none, fun p => by simp only [configLine_admin, hskip, h p, hkey, if_false]; rfl⟩

theorem configLines_policyBlind : ∀ bufs : List (List UInt8), PolicyBlind (configLines true bufs)
  | [] => fun _ => ⟨none, fun _ => rfl⟩
  | buf :: bufs => fun s => by
    obtain ⟨c1, h1⟩ := configLine_policyBlind buf s
    obtain ⟨c2, h2⟩ := configLines_policyBlind bufs (configLine true buf s).2
    refine ⟨c2.or c1, fun p => ?_⟩
    simp only [configLines, h1 p, h2 (c1.getD p)]
    cases c2 <;> rfl

theorem soup_load_config_internal_user (file : Option (List UInt8)) (s : AllowDeny) :
    (soup_load_config_internal file false s).2 = s := by
  cases file
  · rfl
  · exact configLines_user _ s

/-- A call with a system file: its lines from the emptied lists, then the user
    file's lines under what they leave. -/
theorem soup_load_config_some (sys : List UInt8) (user : Option (List UInt8)) (s : AllowDeny) :
    soup_load_config (some sys) user s =
      ((configLines true (fgetsReads sys) (soup_config_reset_allow_deny s)).1 ++
          (soup_load_config_internal user false (configLines true (fgetsReads sys) (soup_config_reset_allow_deny s)).2).1,
        (configLines true (fgetsReads sys) (soup_config_reset_allow_deny s)).2) := by
  show (_, (soup_load_config_internal user false _).2) = _
  rw [soup_load_config_internal_user]
  rfl

/-- Reading the same files again leaves the allow/deny globals as the first
    reading left them, and sorts the lines the same way. -/
theorem soup_load_config_again (system user : Option (List UInt8)) (s : AllowDeny) :
    soup_load_config system user (soup_load_config system user s).2 = soup_load_config system user s := by
  cases system with
  | none =>
    have hs : (soup_load_config none user s).2 = s := soup_load_config_internal_user user s
    rw [hs]
  | some sys =>
    obtain ⟨c, h⟩ := configLines_policyBlind (fgetsReads sys) (soup_config_reset_allow_deny s)
    set first := configLines true (fgetsReads sys) (soup_config_reset_allow_deny s)
    have hfirst : first = (first.1, { first.2 with allow_policy := c.getD s.allow_policy }) := h s.allow_policy
    have hagain : configLines true (fgetsReads sys) (soup_config_reset_allow_deny first.2) = first := by
      have hp : first.2.allow_policy = c.getD s.allow_policy := congrArg (fun x => x.2.allow_policy) hfirst
      have hc : c.getD (c.getD s.allow_policy) = c.getD s.allow_policy := by cases c <;> rfl
      rw [show soup_config_reset_allow_deny first.2 =
          { soup_config_reset_allow_deny s with allow_policy := first.2.allow_policy } from rfl,
        h, hp, hc, ← hfirst]
    rw [soup_load_config_some sys user s, soup_load_config_some sys user first.2, hagain]

@[simp] theorem ok_bind {ε α β : Type} (a : α) (f : α → Except ε β) : (Except.ok a >>= f) = f a := rfl

/-- Once `soup_initialized` is set, reading the same files again rebuilds the
    same globals: the reset and the items' calls write every setting the first
    reading wrote, with the same values, and the allow/deny globals come out
    the same. A handler that reads past its value fails both readings alike. -/
theorem soup_load_config_twice (soup_context_get : List UInt8 → Bool) (system user : Option (List UInt8))
    {g : SoupGlobals} (hg : g.soup_initialized = true) :
    (SoupGlobals.soup_load_config soup_context_get system user g >>=
        SoupGlobals.soup_load_config soup_context_get system user) =
      SoupGlobals.soup_load_config soup_context_get system user g := by
  unfold SoupGlobals.soup_load_config
  have hagain := soup_load_config_again system user g.allowDeny
  generalize libsoup.misc.soup_load_config system user g.allowDeny = res at hagain ⊢
  obtain ⟨lines, allowDeny⟩ := res
  dsimp only at hagain ⊢
  cases hcalls : lines.mapM (lineCalls soup_context_get) with
  | error e => rfl
  | ok calls =>
    simp only [hg, hagain, hcalls, if_true, ok_bind, pure_bind, SoupSetCall.runAll_runAll]

theorem soup_load_config_twice_ca_file :
    (⟨true, ⟨5, none, .SOUP_SECURITY_EXPORT, ⟨none, none, none, none⟩⟩, .initial⟩ : SoupGlobals).soup_initialized =
        true ∧
      (SoupGlobals.soup_load_config (fun _ => true) (some (bytesOf "allow ssl\n"))
          (some (bytesOf "ssl-ca-file = /a\n")) ⟨true, ⟨5, none, .SOUP_SECURITY_EXPORT, ⟨none, none, none, none⟩⟩, .initial⟩ >>=
        SoupGlobals.soup_load_config (fun _ => true) (some (bytesOf "allow ssl\n")) (some (bytesOf "ssl-ca-file = /a\n"))) =
        SoupGlobals.soup_load_config (fun _ => true) (some (bytesOf "allow ssl\n")) (some (bytesOf "ssl-ca-file = /a\n"))
          ⟨true, ⟨5, none, .SOUP_SECURITY_EXPORT, ⟨none, none, none, none⟩⟩, .initial⟩ :=
  ⟨rfl, soup_load_config_twice _ _ _ rfl⟩

/-- Before `soup_initialized` is set nothing is reset: the first reading keeps
    the connection limit the application set, and the next one resets it. -/
example :
    (SoupGlobals.soup_load_config (fun _ => true) none none
        ⟨false, ⟨5, none, .SOUP_SECURITY_DOMESTIC, ⟨none, none, none, none⟩⟩, .initial⟩).toOption.map
        (·.settings.max_connections) = some 5 ∧
      (SoupGlobals.soup_load_config (fun _ => true) none none
          ⟨false, ⟨5, none, .SOUP_SECURITY_DOMESTIC, ⟨none, none, none, none⟩⟩, .initial⟩ >>=
        SoupGlobals.soup_load_config (fun _ => true) none none).toOption.map (·.settings.max_connections) = some 0 := by
  decide

/-- What a reading with a system file takes from the globals before it, once
    `soup_initialized` is set: `allow_policy` and the HTTPS variables, which no
    reset touches, and nothing else. -/
theorem soup_load_config_scratch (soup_context_get : List UInt8 → Bool) (system : List UInt8)
    (user : Option (List UInt8)) {g1 g2 : SoupGlobals} (h1 : g1.soup_initialized = true)
    (h2 : g2.soup_initialized = true) (hpolicy : g1.allowDeny.allow_policy = g2.allowDeny.allow_policy)
    (hhttps : g1.settings.https = g2.settings.https) :
    SoupGlobals.soup_load_config soup_context_get (some system) user g1 =
      SoupGlobals.soup_load_config soup_context_get (some system) user g2 := by
  have hreset : soup_config_reset_allow_deny g1.allowDeny = soup_config_reset_allow_deny g2.allowDeny := by
    show (⟨g1.allowDeny.allow_policy, [], []⟩ : AllowDeny) = ⟨g2.allowDeny.allow_policy, [], []⟩
    rw [hpolicy]
  have hsettings : ∀ calls, SoupSetCall.runAll (resetCalls ++ calls) g1.settings =
      SoupSetCall.runAll (resetCalls ++ calls) g2.settings := fun calls => by
    rw [SoupSetCall.runAll_append, SoupSetCall.runAll_append, runAll_resetCalls, runAll_resetCalls, hhttps]
  have hallow : soup_load_config (some system) user g1.allowDeny =
      soup_load_config (some system) user g2.allowDeny := by
    rw [soup_load_config_some, soup_load_config_some, hreset]
  unfold SoupGlobals.soup_load_config
  rw [h1, h2, hallow, if_pos rfl]
  generalize libsoup.misc.soup_load_config (some system) user g2.allowDeny = res
  obtain ⟨lines, allowDeny⟩ := res
  dsimp only
  cases lines.mapM (lineCalls soup_context_get) with
  | error e => rfl
  | ok calls => simp only [ok_bind, hsettings]

theorem soup_load_config_scratch_ca_file :
    (⟨true, ⟨5, some (bytesOf "http://p"), .SOUP_SECURITY_FRANCE, ⟨some (bytesOf "/ca"), none, none, none⟩⟩,
        ⟨false, [some (bytesOf "a")], []⟩⟩ : SoupGlobals).soup_initialized = true ∧
      (⟨true, ⟨0, none, .SOUP_SECURITY_DOMESTIC, ⟨some (bytesOf "/ca"), none, none, none⟩⟩,
        ⟨false, [], [none]⟩⟩ : SoupGlobals).soup_initialized = true ∧
      (⟨false, [some (bytesOf "a")], []⟩ : AllowDeny).allow_policy = (⟨false, [], [none]⟩ : AllowDeny).allow_policy ∧
      (⟨some (bytesOf "/ca"), none, none, none⟩ : HttpsEnv) = ⟨some (bytesOf "/ca"), none, none, none⟩ ∧
      SoupGlobals.soup_load_config (fun _ => true) (some (bytesOf "deny x\n")) none
          ⟨true, ⟨5, some (bytesOf "http://p"), .SOUP_SECURITY_FRANCE, ⟨some (bytesOf "/ca"), none, none, none⟩⟩,
            ⟨false, [some (bytesOf "a")], []⟩⟩ =
        SoupGlobals.soup_load_config (fun _ => true) (some (bytesOf "deny x\n")) none
          ⟨true, ⟨0, none, .SOUP_SECURITY_DOMESTIC, ⟨some (bytesOf "/ca"), none, none, none⟩⟩,
            ⟨false, [], [none]⟩⟩ :=
  ⟨rfl, rfl, rfl, rfl, soup_load_config_scratch _ _ _ rfl rfl rfl rfl⟩

/-- The HTTPS variables outlive a reset: a file's `ssl-ca-file` is still set
    after a reading of files that do not name it. -/
example :
    (SoupGlobals.soup_load_config (fun _ => true) (some (bytesOf "allow ssl\n")) (some (bytesOf "ssl-ca-file = /a\n"))
        ⟨false, ⟨0, none, .SOUP_SECURITY_DOMESTIC, ⟨none, none, none, none⟩⟩, .initial⟩ >>=
      SoupGlobals.soup_load_config (fun _ => true) (some (bytesOf "allow ssl\n")) none).toOption.map
        (·.settings.https.HTTPS_CA_FILE) = some (some (bytesOf "/a")) := by
  decide

/-- Successive `soup_load_config` calls, each with its system and user files,
    from the globals `g`; a handler that reads past its value stops the run. -/
def SoupGlobals.loadRun (soup_context_get : List UInt8 → Bool)
    (calls : List (Option (List UInt8) × Option (List UInt8))) (g : SoupGlobals) : Except ConfigFault SoupGlobals :=
  calls.foldlM (fun g call => SoupGlobals.soup_load_config soup_context_get call.1 call.2 g) g

/-- Every HTTPS variable set in `e` is set in `e'`. -/
def HttpsEnv.Covers (e e' : HttpsEnv) : Prop :=
  (e.HTTPS_CA_FILE.isSome → e'.HTTPS_CA_FILE.isSome) ∧ (e.HTTPS_CA_DIR.isSome → e'.HTTPS_CA_DIR.isSome) ∧
    (e.HTTPS_CERT_FILE.isSome → e'.HTTPS_CERT_FILE.isSome) ∧ (e.HTTPS_KEY_FILE.isSome → e'.HTTPS_KEY_FILE.isSome)

theorem HttpsEnv.Covers.refl (e : HttpsEnv) : e.Covers e := ⟨id, id, id, id⟩

theorem HttpsEnv.Covers.trans {e1 e2 e3 : HttpsEnv} (h12 : e1.Covers e2) (h23 : e2.Covers e3) : e1.Covers e3 :=
  ⟨h23.1 ∘ h12.1, h23.2.1 ∘ h12.2.1, h23.2.2.1 ∘ h12.2.2.1, h23.2.2.2 ∘ h12.2.2.2⟩

/-- A setter only `putenv`s: it never unsets a variable. -/
theorem SoupSetCall.run_covers (c : SoupSetCall) (st : SoupSettings) : st.https.Covers (c.run st).https := by
  cases c <;> simp [HttpsEnv.Covers, SoupSetCall.run]

theorem SoupSetCall.runAll_covers : ∀ (calls : List SoupSetCall) (st : SoupSettings),
    st.https.Covers (SoupSetCall.runAll calls st).https
  | [], st => .refl st.https
  | c :: calls, st => (c.run_covers st).trans (SoupSetCall.runAll_covers calls (c.run st))

theorem soup_load_config_covers (soup_context_get : List UInt8 → Bool) (system user : Option (List UInt8))
    {g g' : SoupGlobals} (h : SoupGlobals.soup_load_config soup_context_get system user g = .ok g') :
    g.settings.https.Covers g'.settings.https := by
  unfold SoupGlobals.soup_load_config at h
  generalize libsoup.misc.soup_load_config system user g.allowDeny = res at h
  obtain ⟨lines, allowDeny⟩ := res
  dsimp only at h
  cases hcalls : lines.mapM (lineCalls soup_context_get) with
  | error e => rw [hcalls] at h; cases h
  | ok calls =>
    rw [hcalls, ok_bind] at h
    cases h
    exact SoupSetCall.runAll_covers _ _

/-- No call of `soup_load_config` unsets an HTTPS variable: over any sequence
    of calls, a variable once set stays set, also after the files stop naming
    it, since the reset leaves the environment alone and the setters only
    `putenv`. -/
theorem SoupGlobals.loadRun_https_kept (soup_context_get : List UInt8 → Bool) :
    ∀ (calls : List (Option (List UInt8) × Option (List UInt8))) {g g' : SoupGlobals},
      SoupGlobals.loadRun soup_context_get calls g = .ok g' → g.settings.https.Covers g'.settings.https
  | [], g, g', h => by
    cases h
    exact .refl _
  | call :: calls, g, g', h => by
    rw [SoupGlobals.loadRun, List.foldlM_cons] at h
    cases h1 : SoupGlobals.soup_load_config soup_context_get call.1 call.2 g with
    | error e => rw [h1] at h; cases h
    | ok g1 =>
      rw [h1, ok_bind] at h
      exact (soup_load_config_covers _ _ _ h1).trans (SoupGlobals.loadRun_https_kept soup_context_get calls h)

theorem SoupGlobals.loadRun_https_kept_ca_file :
    SoupGlobals.loadRun (fun _ => true) [(none, some (bytesOf "ssl-ca-file = /a\n")), (none, none)]
        ⟨false, ⟨0, none, .SOUP_SECURITY_DOMESTIC, ⟨none, none, none, none⟩⟩, .initial⟩ =
        .ok ⟨true, ⟨0, none, .SOUP_SECURITY_DOMESTIC, ⟨some (bytesOf "/a"), none, none, none⟩⟩, .initial⟩ ∧
      HttpsEnv.Covers ⟨none, none, none, none⟩ ⟨some (bytesOf "/a"), none, none, none⟩ := by
  refine ⟨?run, SoupGlobals.loadRun_https_kept _ _ ?run⟩
  rfl

end libsoup.misc
