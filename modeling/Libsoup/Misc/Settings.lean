import Libsoup.Misc.Config

namespace libsoup.misc

/-- `SoupSecurityPolicy` (soup-misc.h, not under src/). -/
inductive SoupSecurityPolicy
  | SOUP_SECURITY_DOMESTIC
  | SOUP_SECURITY_EXPORT
  | SOUP_SECURITY_FRANCE
  deriving DecidableEq, Repr

/-- The variables that `soup_set_ssl_*` put in the environment, `none` while unset. -/
structure HttpsEnv where
  HTTPS_CA_FILE : Option (List UInt8)
  HTTPS_CA_DIR : Option (List UInt8)
  HTTPS_CERT_FILE : Option (List UInt8)
  HTTPS_KEY_FILE : Option (List UInt8)
  deriving DecidableEq, Repr

/-- The settings: the globals `max_connections`, `proxy_context` (`none` for
    `NULL`, otherwise the URI the context was got for) and
    `ssl_security_level`, and the HTTPS variables. -/
structure SoupSettings where
  max_connections : UInt32
  proxy_context : Option (List UInt8)
  ssl_security_level : SoupSecurityPolicy
  https : HttpsEnv
  deriving DecidableEq, Repr

/-- A call of one of the `soup_set_*` functions. -/
inductive SoupSetCall
  | soup_set_proxy (context : Option (List UInt8))
  | soup_set_connection_limit (max_conn : UInt32)
  | soup_set_security_policy (policy : SoupSecurityPolicy)
  | soup_set_ssl_ca_file (ca_file : List UInt8)
  | soup_set_ssl_ca_dir (ca_dir : List UInt8)
  | soup_set_ssl_cert_files (cert_file key_file : List UInt8)
  deriving DecidableEq, Repr

/-- The bodies of the `soup_set_*` functions: each assigns its global, or
    `putenv`s its variables. The reference counts `soup_set_proxy` keeps are
    not modelled. -/
def SoupSetCall.run : SoupSetCall → SoupSettings → SoupSettings
  | .soup_set_proxy context, st => { st with proxy_context := context }
  | .soup_set_connection_limit max_conn, st => { st with max_connections := max_conn }
  | .soup_set_security_policy policy, st => { st with ssl_security_level := policy }
  | .soup_set_ssl_ca_file ca_file, st => { st with https := { st.https with HTTPS_CA_FILE := some ca_file } }
  | .soup_set_ssl_ca_dir ca_dir, st => { st with https := { st.https with HTTPS_CA_DIR := some ca_dir } }
  | .soup_set_ssl_cert_files cert_file key_file, st =>
    { st with https := { st.https with HTTPS_CERT_FILE := some cert_file, HTTPS_KEY_FILE := some key_file } }

/-- The settings after the calls, in order. -/
def SoupSetCall.runAll (calls : List SoupSetCall) (st : SoupSettings) : SoupSettings :=
  calls.foldl (fun st c => c.run st) st

/-- `strcspn (s, reject)`: the length of the first part of `s` with no byte of `reject`. -/
def strcspn (s reject : List UInt8) : Nat := (s.takeWhile (· ∉ reject)).length

/-- `strspn (s, accept)`: the length of the first part of `s` made of bytes of `accept`. -/
def strspn (s accept : List UInt8) : Nat := (s.takeWhile (· ∈ accept)).length

/-- `atoi (nptr)` of glibc (not under src/), `(int) strtol (nptr, NULL, 10)`
    with a 64-bit `long`: leading white space, an optional sign and the decimal
    digits after it. `strtol` saturates at the bounds of `long`, and the
    conversion to `int` keeps the low 32 bits, in two's complement. -/
def atoi (nptr : List UInt8) : Int :=
  let s := nptr.dropWhile isspace
  let neg := s.head? = some 0x2d
  let s := if s.head? = some 0x2d ∨ s.head? = some 0x2b then s.tail else s
  let n : Nat := (s.takeWhile isdigit).foldl (fun acc d => acc * 10 + (d.toNat - 0x30)) 0
  let l : Int := if neg then max (-n) (-2 ^ 63) else min n (2 ^ 63 - 1)
  l.bmod (2 ^ 32)

/-- `soup_config_connection_limit`: `soup_set_connection_limit (MAX (atoi (value), 0))`. -/
def soup_config_connection_limit (value : List UInt8) : List SoupSetCall :=
  [.soup_set_connection_limit (UInt32.ofNat (max (atoi value) 0).toNat)]

/-- `soup_config_proxy_uri`: `soup_context_get (value)` is `NULL` for a URI it
    does not take, and the proxy is then left as it is. -/
def soup_config_proxy_uri (soup_context_get : List UInt8 → Bool) (value : List UInt8) :
    List SoupSetCall :=
  if soup_context_get value then [.soup_set_proxy (some value)] else []

/-- `soup_config_security_policy`: a switch on `toupper (value [0])`, then
    `g_strcasecmp` of the rest of the value. -/
def soup_config_security_policy (value : List UInt8) : List SoupSetCall :=
  let c := toupper (value.headD 0)
  if c = 0x44 then
    if g_strcasecmp value.tail (bytesOf "OMESTIC") = 0 then [.soup_set_security_policy .SOUP_SECURITY_DOMESTIC]
    else []
  else if c = 0x45 then
    if g_strcasecmp value.tail (bytesOf "XPORT") = 0 then [.soup_set_security_policy .SOUP_SECURITY_EXPORT]
    else []
  else if c = 0x46 then
    if g_strcasecmp value.tail (bytesOf "RANCE") = 0 then [.soup_set_security_policy .SOUP_SECURITY_FRANCE]
    else []
  else []

/-- `soup_config_ssl_ca_file`. -/
def soup_config_ssl_ca_file (value : List UInt8) : List SoupSetCall := [.soup_set_ssl_ca_file value]

/-- `soup_config_ssl_ca_directory`. -/
def soup_config_ssl_ca_directory (value : List UInt8) : List SoupSetCall := [.soup_set_ssl_ca_dir value]

/-- A handler that reads memory the value does not own. -/
inductive ConfigFault
  /-- `soup_config_ssl_certificate` on a value with no blank, when the bytes
      behind its NUL are all blanks: `strspn (value + idx + 1, ...)` reads past
      the allocation. -/
  | past_end (value : List UInt8)
  deriving DecidableEq, Repr

/-- `soup_config_ssl_certificate`: the value is cut with a NUL at its first
    blank, and `idx` is moved on by the blanks that follow the cut's next byte.
    The certificate and key files are the strings at `value` and `value + idx`.
    The handler reads the allocation `value ++ 0 :: tail`, `tail` being the
    bytes `g_strchug` left behind the NUL, and `cut` is that allocation after
    `value [idx] = '\0'`. -/
def soup_config_ssl_certificate (value tail : List UInt8) : Except ConfigFault (List SoupSetCall) :=
  let idx := strcspn value (bytesOf " \t")
  if idx = 0 then .ok []
  else
    let cut := (value ++ 0 :: tail).set idx 0
    let rest := cut.drop (idx + 1)
    if strspn rest (bytesOf " \t") = rest.length then .error (.past_end value)
    else
      let idx := idx + strspn rest (bytesOf " \t")
      if idx = 0 then .ok []
      else .ok [.soup_set_ssl_cert_files (cut.takeWhile (· ≠ 0)) ((cut.drop idx).takeWhile (· ≠ 0))]

/-- `funcs->func (key, value)` for the entry of `soup_config_funcs` with this
    key. A value is a C string, the list of its bytes without the NUL; `tail`
    is what its allocation holds behind the NUL. -/
def configFunc (soup_context_get : List UInt8 → Bool) (key value tail : List UInt8) :
    Except ConfigFault (List SoupSetCall) :=
  if key = bytesOf "connection-limit" then .ok (soup_config_connection_limit value)
  else if key = bytesOf "proxy-uri" ∨ key = bytesOf "proxy-url" then
    .ok (soup_config_proxy_uri soup_context_get value)
  else if key = bytesOf "security-policy" then .ok (soup_config_security_policy value)
  else if key = bytesOf "ssl-ca-file" then .ok (soup_config_ssl_ca_file value)
  else if key = bytesOf "ssl-ca-directory" then .ok (soup_config_ssl_ca_directory value)
  else if key = bytesOf "ssl-certificate" then soup_config_ssl_certificate value tail
  else .ok []

/-- The calls a line of a configuration file makes. -/
def lineCalls (soup_context_get : List UInt8 → Bool) : ConfigLine → Except ConfigFault (List SoupSetCall)
  | .applied entry value tail => configFunc soup_context_get entry value tail
  | _ => .ok []

/-- The `/* Reset values */` block of `soup_load_config`. -/
def resetCalls : List SoupSetCall :=
  [.soup_set_proxy none, .soup_set_connection_limit 0, .soup_set_security_policy .SOUP_SECURITY_DOMESTIC]

/-- The state `soup_load_config` reads and writes: `soup_initialized`, the
    settings and the allow/deny globals. -/
structure SoupGlobals where
  soup_initialized : Bool
  settings : SoupSettings
  allowDeny : AllowDeny
  deriving DecidableEq, Repr

/-- All of `soup_load_config (config_file)`, with `SYSCONFDIR` defined: the
    settings are reset when `soup_initialized` is set, then the lines of the
    system file and of the given or the user's file are read, and each item
    that gets through makes the calls of its handler. -/
def SoupGlobals.soup_load_config (soup_context_get : List UInt8 → Bool) (system user : Option (List UInt8))
    (g : SoupGlobals) : Except ConfigFault SoupGlobals := do
  let (lines, allowDeny) := libsoup.misc.soup_load_config system user g.allowDeny
  let calls ← lines.mapM (lineCalls soup_context_get)
  pure ⟨true, SoupSetCall.runAll ((if g.soup_initialized then resetCalls else []) ++ calls.flatten) g.settings,
    allowDeny⟩

/-- The settings a call or a sequence of calls writes, with the values written
    there; `none` where nothing is written. -/
structure SettingsPatch where
  max_connections : Option UInt32
  proxy_context : Option (Option (List UInt8))
  ssl_security_level : Option SoupSecurityPolicy
  HTTPS_CA_FILE : Option (Option (List UInt8))
  HTTPS_CA_DIR : Option (Option (List UInt8))
  HTTPS_CERT_FILE : Option (Option (List UInt8))
  HTTPS_KEY_FILE : Option (Option (List UInt8))
  deriving DecidableEq, Repr

/-- Nothing written. -/
def SettingsPatch.keep : SettingsPatch := ⟨none, none, none, none, none, none, none⟩

/-- What one call writes. -/
def SoupSetCall.writes : SoupSetCall → SettingsPatch
  | .soup_set_proxy context => { SettingsPatch.keep with proxy_context := some context }
  | .soup_set_connection_limit max_conn => { SettingsPatch.keep with max_connections := some max_conn }
  | .soup_set_security_policy policy => { SettingsPatch.keep with ssl_security_level := some policy }
  | .soup_set_ssl_ca_file ca_file => { SettingsPatch.keep with HTTPS_CA_FILE := some (some ca_file) }
  | .soup_set_ssl_ca_dir ca_dir => { SettingsPatch.keep with HTTPS_CA_DIR := some (some ca_dir) }
  | .soup_set_ssl_cert_files cert_file key_file =>
    { SettingsPatch.keep with HTTPS_CERT_FILE := some (some cert_file), HTTPS_KEY_FILE := some (some key_file) }

/-- The settings with the written values in place. -/
def SettingsPatch.apply (p : SettingsPatch) (st : SoupSettings) : SoupSettings :=
  ⟨p.max_connections.getD st.max_connections, p.proxy_context.getD st.proxy_context,
    p.ssl_security_level.getD st.ssl_security_level,
    ⟨p.HTTPS_CA_FILE.getD st.https.HTTPS_CA_FILE, p.HTTPS_CA_DIR.getD st.https.HTTPS_CA_DIR,
      p.HTTPS_CERT_FILE.getD st.https.HTTPS_CERT_FILE, p.HTTPS_KEY_FILE.getD st.https.HTTPS_KEY_FILE⟩⟩

/-- For each setting, the last value a sequence of patches writes there. -/
def SettingsPatch.last (ps : List SettingsPatch) : SettingsPatch :=
  ⟨(ps.filterMap (·.max_connections)).getLast?, (ps.filterMap (·.proxy_context)).getLast?,
    (ps.filterMap (·.ssl_security_level)).getLast?, (ps.filterMap (·.HTTPS_CA_FILE)).getLast?,
    (ps.filterMap (·.HTTPS_CA_DIR)).getLast?, (ps.filterMap (·.HTTPS_CERT_FILE)).getLast?,
    (ps.filterMap (·.HTTPS_KEY_FILE)).getLast?⟩

private theorem getD_getLast?_filterMap_cons {α β : Type} (f : α → Option β) (a : α) (l : List α) (x : β) :
    ((a :: l).filterMap f).getLast?.getD x = (l.filterMap f).getLast?.getD ((f a).getD x) := by
  cases h : f a <;> simp [List.filterMap_cons, h, List.getLast?_cons]

private theorem getD_getD_self {α : Type} (o : Option α) (x : α) : o.getD (o.getD x) = o.getD x := by
  cases o <;> rfl

theorem SettingsPatch.last_cons_apply (p : SettingsPatch) (ps : List SettingsPatch) (st : SoupSettings) :
    (SettingsPatch.last (p :: ps)).apply st = (SettingsPatch.last ps).apply (p.apply st) := by
  simp only [SettingsPatch.last, SettingsPatch.apply, getD_getLast?_filterMap_cons]

theorem SettingsPatch.apply_apply_self (p : SettingsPatch) (st : SoupSettings) :
    p.apply (p.apply st) = p.apply st := by
  simp only [SettingsPatch.apply, getD_getD_self]

theorem SoupSetCall.run_eq_apply (c : SoupSetCall) (st : SoupSettings) : c.run st = c.writes.apply st := by
  cases c <;> rfl

/-- A sequence of calls leaves, in each setting, the value of the last call
    that writes it, and the setting's old value where none does. -/
theorem SoupSetCall.runAll_eq (calls : List SoupSetCall) (st : SoupSettings) :
    SoupSetCall.runAll calls st = (SettingsPatch.last (calls.map SoupSetCall.writes)).apply st := by
  induction calls generalizing st with
  | nil => rfl
  | cons c calls ih =>
    rw [List.map_cons, SettingsPatch.last_cons_apply, ← SoupSetCall.run_eq_apply]
    exact ih (c.run st)

theorem SoupSetCall.runAll_append (xs ys : List SoupSetCall) (st : SoupSettings) :
    SoupSetCall.runAll (xs ++ ys) st = SoupSetCall.runAll ys (SoupSetCall.runAll xs st) :=
  List.foldl_append _ _ _ _

/-- The same calls made twice leave what they leave made once. -/
theorem SoupSetCall.runAll_runAll (calls : List SoupSetCall) (st : SoupSettings) :
    SoupSetCall.runAll calls (SoupSetCall.runAll calls st) = SoupSetCall.runAll calls st := by
  simp only [SoupSetCall.runAll_eq, SettingsPatch.apply_apply_self]

/-- The reset writes the three globals and leaves the HTTPS variables. -/
theorem runAll_resetCalls (st : SoupSettings) :
    SoupSetCall.runAll resetCalls st = ⟨0, none, .SOUP_SECURITY_DOMESTIC, st.https⟩ := rfl

/-- One pass of the loop of `Nat.toDigits`: the last digit goes in front of
    the digits found so far. -/
theorem toDigitsCore_succ (f n : Nat) (acc : List Char) :
    Nat.toDigitsCore 10 (f + 1) n acc =
      if n / 10 = 0 then Nat.digitChar (n % 10) :: acc
      else Nat.toDigitsCore 10 f (n / 10) (Nat.digitChar (n % 10) :: acc) :=
  rfl

theorem toDigitsCore_append (f n : Nat) (acc : List Char) :
    Nat.toDigitsCore 10 f n acc = Nat.toDigitsCore 10 f n [] ++ acc := by
  induction f generalizing n acc with
  | zero => rfl
  | succ f ih =>
    rw [toDigitsCore_succ, toDigitsCore_succ]
    split_ifs
    · rfl
    · rw [ih _ (_ :: acc), ih _ [_], List.append_assoc, List.singleton_append]

/-- The byte of a decimal digit is a digit for `isdigit`, and neither white
    space nor a sign. -/
theorem digitChar_byte : ∀ k < 10,
    isspace (Nat.digitChar k).toNat.toUInt8 = false ∧ (Nat.digitChar k).toNat.toUInt8 ≠ 0x2d ∧
      (Nat.digitChar k).toNat.toUInt8 ≠ 0x2b ∧ isdigit (Nat.digitChar k).toNat.toUInt8 = true ∧
      (Nat.digitChar k).toNat.toUInt8.toNat - 0x30 = k := by
  decide

/-- The bytes `Nat.toDigits` gives for `n` are digits, and `atoi`'s loop reads
    `n` back from them. -/
theorem toDigitsCore_digits : ∀ (f n : Nat), n < f →
    (∀ c ∈ Nat.toDigitsCore 10 f n [], ∃ k < 10, c = Nat.digitChar k) ∧
      ((Nat.toDigitsCore 10 f n []).map fun c => c.toNat.toUInt8).foldl
        (fun acc d => acc * 10 + (d.toNat - 0x30)) 0 = n
  | 0, _, h => absurd h (Nat.not_lt_zero _)
  | f + 1, n, h => by
    have hd := (digitChar_byte (n % 10) (Nat.mod_lt _ (by decide))).2.2.2.2
    rw [toDigitsCore_succ]
    split_ifs with hdiv
    · refine ⟨fun c hc => ⟨n % 10, Nat.mod_lt _ (by decide), List.mem_singleton.mp hc⟩, ?_⟩
      simp only [List.map_cons, List.map_nil, List.foldl_cons, List.foldl_nil, hd]
      omega
    · obtain ⟨hdigits, hvalue⟩ := toDigitsCore_digits f (n / 10) (by omega)
      rw [toDigitsCore_append]
      refine ⟨fun c hc => ?_, ?_⟩
      · rcases List.mem_append.mp hc with hc | hc
        · exact hdigits c hc
        · exact ⟨n % 10, Nat.mod_lt _ (by decide), List.mem_singleton.mp hc⟩
      · rw [List.map_append, List.foldl_append, hvalue]
        simp only [List.map_cons, List.map_nil, List.foldl_cons, List.foldl_nil, hd]
        omega

/-- `atoi` of `n` in decimal: `n`, stopped at `LONG_MAX` and cut to 32 bits. -/
theorem atoi_toString (n : Nat) : atoi (bytesOf (toString n)) = (min (n : Int) (2 ^ 63 - 1)).bmod (2 ^ 32) := by
  obtain ⟨hdigits, hvalue⟩ := toDigitsCore_digits (n + 1) n (Nat.lt_succ_self n)
  have hbytes : bytesOf (toString n) = (Nat.toDigits 10 n).map fun c => c.toNat.toUInt8 := rfl
  have hbyte : ∀ c ∈ bytesOf (toString n), isspace c = false ∧ c ≠ 0x2d ∧ c ≠ 0x2b ∧ isdigit c = true := by
    intro c hc
    rw [hbytes] at hc
    obtain ⟨ch, hch, rfl⟩ := List.mem_map.mp hc
    obtain ⟨k, hk, rfl⟩ := hdigits ch hch
    obtain ⟨hspace, hminus, hplus, hdigit, -⟩ := digitChar_byte k hk
    exact ⟨hspace, hminus, hplus, hdigit⟩
  have hdrop : (bytesOf (toString n)).dropWhile isspace = bytesOf (toString n) := by
    cases h : bytesOf (toString n) with
    | nil => rfl
    | cons c rest => exact List.dropWhile_cons_of_neg (by simp [(hbyte c (h ▸ .head _)).1])
  have htake : (bytesOf (toString n)).takeWhile isdigit = bytesOf (toString n) :=
    List.takeWhile_eq_self_iff.mpr fun c hc => (hbyte c hc).2.2.2
  unfold atoi
  dsimp only
  rw [hdrop]
  have hneg : ¬ (bytesOf (toString n)).head? = some 0x2d := fun h => (hbyte _ (List.mem_of_mem_head? h)).2.1 rfl
  have hpos : ¬ (bytesOf (toString n)).head? = some 0x2b := fun h => (hbyte _ (List.mem_of_mem_head? h)).2.2.1 rfl
  rw [if_neg hneg, if_neg (not_or.mpr ⟨hneg, hpos⟩), htake, hbytes]
  exact congrArg (fun m : Nat => (min (m : Int) (2 ^ 63 - 1)).bmod (2 ^ 32)) hvalue

/-- `connection-limit = n`, for every `n` written in decimal: `strtol` stops at
    `LONG_MAX` and the conversion to `int` keeps 32 bits, so the limit is `n`
    only below `2^31`; a larger `n` gives `n` modulo `2^32` when that is below
    `2^31`, and no limit (0) otherwise. -/
theorem soup_config_connection_limit_decimal (n : Nat) :
    soup_config_connection_limit (bytesOf (toString n)) =
      [.soup_set_connection_limit (UInt32.ofNat (if n < 2 ^ 63 ∧ n % 2 ^ 32 < 2 ^ 31 then n % 2 ^ 32 else 0))] := by
  have hlimit : (max ((min (n : Int) (2 ^ 63 - 1)).bmod (2 ^ 32)) 0).toNat =
      if n < 2 ^ 63 ∧ n % 2 ^ 32 < 2 ^ 31 then n % 2 ^ 32 else 0 := by
    rw [Int.bmod_def]
    split_ifs <;> omega
  rw [soup_config_connection_limit, atoi_toString, hlimit]

/-- A limit of `2^32 + 1` is a limit of one connection. -/
example : soup_config_connection_limit (bytesOf "4294967297") = [.soup_set_connection_limit 1] := by
  decide

/-- The name of each policy, in lower case. -/
def SoupSecurityPolicy.name : SoupSecurityPolicy → List UInt8
  | .SOUP_SECURITY_DOMESTIC => bytesOf "domestic"
  | .SOUP_SECURITY_EXPORT => bytesOf "export"
  | .SOUP_SECURITY_FRANCE => bytesOf "france"

private theorem toNat_sub_toNat_eq_zero (a b : UInt8) : ((a.toNat : Int) - b.toNat = 0 ↔ a = b) := by
  rw [← byte_toNat_inj]
  omega

/-- `g_strcasecmp` of two NUL-free strings is 0 exactly when they are equal
    through `tolower`. -/
theorem g_strcasecmp_eq_zero_iff {s1 : List UInt8} (h1 : 0 ∉ s1) :
    ∀ {s2 : List UInt8}, 0 ∉ s2 → (g_strcasecmp s1 s2 = 0 ↔ s1.map tolower = s2.map tolower) := by
  induction s1 with
  | nil =>
    intro s2 h2
    cases s2 with
    | nil => simp [g_strcasecmp]; rfl
    | cons d r2 =>
      have hd : (tolower d).toNat ≠ 0 := fun h =>
        h2 ((tolower_eq_zero_iff d).mp (byte_toNat_inj.mp (h.trans UInt8.toNat_zero.symm)) ▸ .head _)
      simp only [g_strcasecmp, List.headD_cons, List.map_nil, List.map_cons, List.nil_eq, reduceCtorEq, iff_false]
      omega
  | cons c r ih =>
    intro s2 h2
    have hc : c ≠ 0 := fun h => h1 (h ▸ .head _)
    cases s2 with
    | nil =>
      have hres : ((tolower c).toNat : Int) - (tolower 0).toNat ≠ 0 :=
        mt (toNat_sub_toNat_eq_zero _ _).mp (mt (tolower_eq_zero_iff c).mp hc ∘ (·.trans rfl))
      simp only [g_strcasecmp, List.headD_nil, hres, false_and, if_false, List.map_cons, List.map_nil,
        reduceCtorEq]
    | cons d r2 =>
      simp only [g_strcasecmp, List.headD_cons, List.tail_cons, List.map_cons, List.cons.injEq,
        toNat_sub_toNat_eq_zero]
      by_cases hcd : tolower c = tolower d
      · rw [if_pos ⟨hcd, hc⟩, ih (fun h => h1 (.tail _ h)) fun h => h2 (.tail _ h)]
        exact ⟨fun h => ⟨hcd, h⟩, And.right⟩
      · rw [if_neg fun h => hcd h.1]
        exact ⟨fun h => absurd ((toNat_sub_toNat_eq_zero _ _).mp h) hcd, fun h => absurd h.1 hcd⟩

theorem map_tolower_eq_cons_iff (value : List UInt8) {n : UInt8} (hn : n ≠ 0) (ns : List UInt8) :
    value.map tolower = n :: ns ↔ tolower (value.headD 0) = n ∧ value.tail.map tolower = ns := by
  cases value with
  | nil => exact ⟨nofun, fun h => absurd h.1.symm hn⟩
  | cons c r => simp

/-- The `security-policy` item sets the policy whose name the value is, in any
    mix of case, and leaves the policy as it is for any other value. -/
theorem soup_config_security_policy_eq (value : List UInt8) (hvalue : 0 ∉ value) :
    soup_config_security_policy value =
      ([SoupSecurityPolicy.SOUP_SECURITY_DOMESTIC, .SOUP_SECURITY_EXPORT, .SOUP_SECURITY_FRANCE].filter
        (fun p => value.map tolower = p.name)).map .soup_set_security_policy := by
  have htail : 0 ∉ value.tail := fun h => hvalue (List.mem_of_mem_tail h)
  have hD : toupper (value.headD 0) = 0x44 ↔ tolower (value.headD 0) = 0x64 := toupper_eq_iff_tolower_eq _ 0x44
  have hE : toupper (value.headD 0) = 0x45 ↔ tolower (value.headD 0) = 0x65 := toupper_eq_iff_tolower_eq _ 0x45
  have hF : toupper (value.headD 0) = 0x46 ↔ tolower (value.headD 0) = 0x66 := toupper_eq_iff_tolower_eq _ 0x46
  have hcmpD : g_strcasecmp value.tail (bytesOf "OMESTIC") = 0 ↔ value.tail.map tolower = bytesOf "omestic" :=
    g_strcasecmp_eq_zero_iff htail (by decide)
  have hcmpE : g_strcasecmp value.tail (bytesOf "XPORT") = 0 ↔ value.tail.map tolower = bytesOf "xport" :=
    g_strcasecmp_eq_zero_iff htail (by decide)
  have hcmpF : g_strcasecmp value.tail (bytesOf "RANCE") = 0 ↔ value.tail.map tolower = bytesOf "rance" :=
    g_strcasecmp_eq_zero_iff htail (by decide)
  have hnD : value.map tolower = bytesOf "domestic" ↔
      tolower (value.headD 0) = 0x64 ∧ value.tail.map tolower = bytesOf "omestic" :=
    map_tolower_eq_cons_iff value (by decide) _
  have hnE : value.map tolower = bytesOf "export" ↔
      tolower (value.headD 0) = 0x65 ∧ value.tail.map tolower = bytesOf "xport" :=
    map_tolower_eq_cons_iff value (by decide) _
  have hnF : value.map tolower = bytesOf "france" ↔
      tolower (value.headD 0) = 0x66 ∧ value.tail.map tolower = bytesOf "rance" :=
    map_tolower_eq_cons_iff value (by decide) _
  simp only [soup_config_security_policy, SoupSecurityPolicy.name, List.filter_cons, List.filter_nil, hD, hE, hF,
    hcmpD, hcmpE, hcmpF, hnD, hnE, hnF, decide_eq_true_eq]
  generalize tolower (value.headD 0) = t
  generalize value.tail.map tolower = m
  rcases em (t = 0x64) with rfl | h4
  · by_cases hm : m = bytesOf "omestic" <;> simp [hm]
  rcases em (t = 0x65) with rfl | h5
  · by_cases hm : m = bytesOf "xport" <;> simp [hm]
  rcases em (t = 0x66) with rfl | h6
  · by_cases hm : m = bytesOf "rance" <;> simp [hm]
  simp [h4, h5, h6]

theorem soup_config_security_policy_eq_mixed_case :
    0 ∉ bytesOf "ExPort" ∧
      soup_config_security_policy (bytesOf "ExPort") =
        ([SoupSecurityPolicy.SOUP_SECURITY_DOMESTIC, .SOUP_SECURITY_EXPORT, .SOUP_SECURITY_FRANCE].filter
          (fun p => (bytesOf "ExPort").map tolower = p.name)).map .soup_set_security_policy :=
  ⟨by decide, soup_config_security_policy_eq _ (by decide)⟩

@[simp] theorem bytesOf_blanks : bytesOf " \t" = [0x20, 0x09] := rfl

private theorem takeWhile_append_of_head {α : Type} {p : α → Bool} {l₁ l₂ : List α} (h₁ : ∀ a ∈ l₁, p a)
    (h₂ : ∀ a ∈ l₂.head?, p a = false) : (l₁ ++ l₂).takeWhile p = l₁ := by
  rw [List.takeWhile_append_of_pos h₁]
  cases l₂ with
  | nil => simp
  | cons a l => simp [List.takeWhile_cons, h₂ a rfl]

/-- The key file: the string from `value + idx`, where `idx` stops at the last
    byte of the separator, or at the NUL written over its first byte when the
    separator is one byte long. -/
theorem ssl_key_file (seps key tail : List UInt8) (hseps : ∀ c ∈ seps, c ∈ bytesOf " \t") (hkey : 0 ∉ key) :
    ((0 :: (seps ++ key ++ 0 :: tail)).drop seps.length).takeWhile (· ≠ 0) = seps.getLast?.elim [] (· :: key) := by
  obtain rfl | ⟨L, b, rfl⟩ := List.eq_nil_or_concat seps
  · simp
  · have hb : b ≠ 0 := by
      have := hseps b (by simp)
      simp only [bytesOf_blanks, List.mem_cons, List.mem_singleton, List.not_mem_nil, or_false] at this
      rcases this with rfl | rfl <;> decide
    rw [List.concat_eq_append, List.getLast?_concat, List.length_append, List.length_singleton,
      List.drop_succ_cons, List.append_assoc, List.append_assoc, List.drop_left, List.singleton_append,
      Option.elim_some, ← List.cons_append]
    refine takeWhile_append_of_head (fun c hc => ?_) (by simp)
    rcases List.mem_cons.mp hc with rfl | hc
    · simpa using hb
    · simpa using ne_of_mem_of_not_mem hc hkey

/-- A value `cert sep key`, where `sep` is a run of blanks: the certificate file
    is `cert`, but the key file is empty when `sep` is one byte long and is
    otherwise `key` behind the last byte of `sep`; never `key` itself unless
    both are empty. A value with no blank reads the bytes behind its NUL: past
    the allocation when `g_strchug` left none there (no blank stood before the
    value), and otherwise, when the first of them is not a blank, it sets the
    certificate and an empty key file. -/
theorem soup_config_ssl_certificate_key (cert seps key tail : List UInt8) (s : UInt8) (hcert : cert ≠ [])
    (hcert_blank : ∀ c ∈ cert, c ∉ bytesOf " \t") (hnul : 0 ∉ cert ∧ 0 ∉ key) (hs : s ∈ bytesOf " \t")
    (hseps : ∀ c ∈ seps, c ∈ bytesOf " \t") (hkey : ∀ c ∈ key.head?, c ∉ bytesOf " \t") :
    soup_config_ssl_certificate (cert ++ s :: seps ++ key) tail =
        .ok [.soup_set_ssl_cert_files cert (seps.getLast?.elim [] (· :: key))] ∧
      ((∀ c ∈ tail.head?, c ∉ bytesOf " \t") → soup_config_ssl_certificate cert tail =
        if tail = [] then .error (.past_end cert) else .ok [.soup_set_ssl_cert_files cert []]) := by
  have hcert_len : cert.length ≠ 0 := mt List.length_eq_zero.mp hcert
  have hcspan : ∀ rest : List UInt8, (∀ c ∈ rest.head?, c ∈ bytesOf " \t") →
      strcspn (cert ++ rest) (bytesOf " \t") = cert.length := fun rest hrest => by
    unfold strcspn
    rw [takeWhile_append_of_head (fun c hc => decide_eq_true (hcert_blank c hc))
      (fun c hc => decide_eq_false (not_not.mpr (hrest c hc)))]
  have hcert_file : ∀ rest : List UInt8, (cert ++ 0 :: rest).takeWhile (· ≠ 0) = cert := fun rest =>
    takeWhile_append_of_head (fun c hc => decide_eq_true fun h => hnul.1 (h ▸ hc)) (by simp)
  have hset : ∀ (x : UInt8) rest, (cert ++ x :: rest).set cert.length 0 = cert ++ 0 :: rest := fun x rest => by
    rw [List.set_append_right _ _ le_rfl, Nat.sub_self, List.set_cons_zero]
  constructor
  · have hspan : strspn (seps ++ key ++ 0 :: tail) (bytesOf " \t") = seps.length := by
      unfold strspn
      rw [List.append_assoc, takeWhile_append_of_head (fun c hc => decide_eq_true (hseps c hc))]
      cases key with
      | nil => simp
      | cons k key => simpa using hkey k rfl
    rw [List.append_assoc, List.cons_append]
    unfold soup_config_ssl_certificate
    dsimp only
    rw [hcspan _ fun c hc => by cases hc; exact hs, List.append_assoc, List.cons_append, hset,
      List.drop_append, List.drop_one, List.tail_cons, hspan, hcert_file, List.drop_append,
      ssl_key_file seps key tail hseps hnul.2]
    simp [hcert_len]
  · intro htail
    have hlen : strcspn cert (bytesOf " \t") = cert.length := by simpa using hcspan [] (by simp)
    have hspan : strspn tail (bytesOf " \t") = 0 := by
      cases tail with
      | nil => rfl
      | cons t tail => simpa [strspn] using htail t rfl
    unfold soup_config_ssl_certificate
    dsimp only
    rw [hlen, hset, List.drop_append, List.drop_one, List.tail_cons, hspan, hcert_file, Nat.add_zero,
      List.drop_left]
    cases tail <;> simp [hcert_len]

/-- `ssl-certificate = c.pem k.pem` with two blanks between the files, and the
    value `c.pem` of `ssl-certificate = c.pem`, behind whose NUL `g_strchug`
    left the old NUL. -/
theorem soup_config_ssl_certificate_key_two_blanks :
    (bytesOf "c.pem" ≠ [] ∧ (∀ c ∈ bytesOf "c.pem", c ∉ bytesOf " \t") ∧ (0 ∉ bytesOf "c.pem" ∧ 0 ∉ bytesOf "k.pem") ∧
      (0x20 : UInt8) ∈ bytesOf " \t" ∧ (∀ c ∈ [(0x20 : UInt8)], c ∈ bytesOf " \t") ∧
      (∀ c ∈ (bytesOf "k.pem").head?, c ∉ bytesOf " \t") ∧
      ∀ c ∈ (g_strchug_tail (bytesOf " c.pem")).head?, c ∉ bytesOf " \t") ∧
    soup_config_ssl_certificate (bytesOf "c.pem" ++ 0x20 :: [0x20] ++ bytesOf "k.pem") (g_strchug_tail (bytesOf " c.pem")) =
        .ok [.soup_set_ssl_cert_files (bytesOf "c.pem") ([(0x20 : UInt8)].getLast?.elim [] (· :: bytesOf "k.pem"))] ∧
      soup_config_ssl_certificate (bytesOf "c.pem") (g_strchug_tail (bytesOf " c.pem")) =
        if g_strchug_tail (bytesOf " c.pem") = [] then .error (.past_end (bytesOf "c.pem"))
        else .ok [.soup_set_ssl_cert_files (bytesOf "c.pem") []] :=
  have h := soup_config_ssl_certificate_key (bytesOf "c.pem") [0x20] (bytesOf "k.pem")
    (g_strchug_tail (bytesOf " c.pem")) 0x20 (by decide) (by decide) (by decide) (by decide) (by decide) (by decide)
  ⟨by decide, h.1, h.2 (by decide)⟩

/-- Through a whole load: `ssl-certificate = c.pem` sets the certificate and an
    empty key file, and `ssl-certificate=c.pem` reads past its value. -/
example :
    (SoupGlobals.soup_load_config (fun _ => true) none (some (bytesOf "ssl-certificate = c.pem\n"))
        ⟨false, ⟨0, none, .SOUP_SECURITY_DOMESTIC, ⟨none, none, none, none⟩⟩, .initial⟩).toOption.map
        (·.settings.https) = some ⟨none, none, some (bytesOf "c.pem"), some []⟩ ∧
      SoupGlobals.soup_load_config (fun _ => true) none (some (bytesOf "ssl-certificate=c.pem\n"))
        ⟨false, ⟨0, none, .SOUP_SECURITY_DOMESTIC, ⟨none, none, none, none⟩⟩, .initial⟩ =
        .error (.past_end (bytesOf "c.pem")) :=
  ⟨by decide, rfl⟩

end libsoup.misc
