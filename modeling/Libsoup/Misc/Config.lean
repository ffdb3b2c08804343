import Libsoup.Misc.StrCase

namespace libsoup.misc

/-- `g_strchug` (glib, not under src/): the string without its leading white
    space. A C string is the list of its bytes, without the NUL. -/
def g_strchug (s : List UInt8) : List UInt8 := s.dropWhile isspace

/-- The bytes `g_strchug (s)` leaves behind the string's new NUL in the
    `s ++ [0]` it was given: its `g_memmove` moves the string and its NUL down
    over the leading white space, and the last bytes of the old string stay
    where they were. -/
def g_strchug_tail (s : List UInt8) : List UInt8 := (s ++ [0]).drop ((g_strchug s).length + 1)

theorem g_strchug_eq_drop (s : List UInt8) : g_strchug s = s.drop (s.takeWhile isspace).length := by
  have h := congrArg (List.drop (s.takeWhile isspace).length) (List.takeWhile_append_dropWhile isspace s)
  rw [List.drop_left] at h
  exact h

/-- The allocation after `g_strchug (s)` is what `g_memmove` makes of `s ++ [0]`:
    the `strlen (start) + 1` bytes from `start`, the first byte past the leading
    white space, copied to its front, and the old bytes past them. -/
theorem g_strchug_buffer (s : List UInt8) :
    g_strchug s ++ 0 :: g_strchug_tail s =
      ((s ++ [0]).drop (s.takeWhile isspace).length).take ((g_strchug s).length + 1) ++
        (s ++ [0]).drop ((g_strchug s).length + 1) := by
  have hk : (s.takeWhile isspace).length ≤ s.length := (List.takeWhile_sublist _).length_le
  rw [g_strchug_tail, List.drop_append_of_le_length hk, ← g_strchug_eq_drop,
    List.take_of_length_le (by simp), List.append_assoc, List.singleton_append]

/-- `g_strchomp` (glib, not under src/): the string without its trailing white space. -/
def g_strchomp (s : List UInt8) : List UInt8 := (s.reverse.dropWhile isspace).reverse

/-- `g_strstrip` (glib, not under src/): `g_strchomp (g_strchug (s))`. -/
def g_strstrip (s : List UInt8) : List UInt8 := g_strchomp (g_strchug s)

/-- The loop of `g_strsplit` for a one-byte delimiter, cutting at no more than
    `cuts` delimiters; the rest is a last piece when it is not empty. -/
def splitLoop (delimiter : UInt8) : Nat → List UInt8 → List (List UInt8)
  | 0, s => if s = [] then [] else [s]
  | cuts + 1, s =>
    if delimiter ∈ s then
      s.takeWhile (· ≠ delimiter) :: splitLoop delimiter cuts ((s.dropWhile (· ≠ delimiter)).drop 1)
    else if s = [] then [] else [s]

/-- `g_strsplit (string, delimiter, max_tokens)` of glib 1.2 (not under src/) for
    a one-byte delimiter: its `do ... while (--max_tokens && s)` loop cuts at up
    to `max_tokens` delimiters (at all of them when `max_tokens < 1`), and
    `if (*string)` keeps a non-empty rest. -/
def g_strsplit (string : List UInt8) (delimiter : UInt8) (max_tokens : Int) : List (List UInt8) :=
  splitLoop delimiter (if max_tokens < 1 then string.length else max_tokens.toNat) string

/-- The globals `allow_policy`, `allow_tokens` and `deny_tokens`. A list holds
    the token strings, newest first as `g_slist_prepend` leaves them; `none` is
    the `NULL` entry that `all` puts there. -/
structure AllowDeny where
  allow_policy : Bool
  allow_tokens : List (Option (List UInt8))
  deny_tokens : List (Option (List UInt8))
  deriving DecidableEq, Repr

/-- The values the globals start with: `ALLOW_UNLESS_DENIED` and two empty lists. -/
def AllowDeny.initial : AllowDeny := ⟨true, [], []⟩

/-- `soup_config_reset_allow_deny`: both lists freed and emptied; `allow_policy`
    is left as it is. -/
def soup_config_reset_allow_deny (s : AllowDeny) : AllowDeny :=
  { s with allow_tokens := [], deny_tokens := [] }

/-- `*list`, where `list` is `&allow_tokens` when `isAllow` and `&deny_tokens`
    otherwise. -/
def AllowDeny.list (s : AllowDeny) (isAllow : Bool) : List (Option (List UInt8)) :=
  if isAllow then s.allow_tokens else s.deny_tokens

/-- `*list = l`. -/
def AllowDeny.setList (s : AllowDeny) (isAllow : Bool) (l : List (Option (List UInt8))) : AllowDeny :=
  if isAllow then { s with allow_tokens := l } else { s with deny_tokens := l }

/-- `*list == allow_tokens`, a comparison of list heads: it holds for
    `&allow_tokens`, and for `&deny_tokens` only when both lists are `NULL`,
    since two non-empty lists never share a node. -/
def AllowDeny.headIsAllow (s : AllowDeny) (isAllow : Bool) : Bool :=
  isAllow || (s.deny_tokens.isEmpty && s.allow_tokens.isEmpty)

/-- The loop `while (*(++iter))` of `soup_config_allow_deny` over the tokens
    after the keyword: `all` sets `allow_policy = (*list == allow_tokens)`,
    leaves `*list` holding one `NULL` entry and ends the loop; any other token
    is prepended to `*list`. -/
def addTokens (isAllow : Bool) : List (List UInt8) → AllowDeny → AllowDeny
  | [], s => s
  | tok :: toks, s =>
    if g_strcasecmp tok (bytesOf "all") = 0 then
      { s.setList isAllow [none] with allow_policy := s.headIsAllow isAllow }
    else addTokens isAllow toks (s.setList isAllow (some tok :: s.list isAllow))

/-- `soup_config_allow_deny (key)`: whether `key` is an `allow` or `deny` line,
    and the globals after it. -/
def soup_config_allow_deny (key : List UInt8) (s : AllowDeny) : Bool × AllowDeny :=
  let key := g_strchomp key
  if g_strncasecmp key (bytesOf "allow") 5 = 0 then (true, addTokens true (g_strsplit key 0x20 0).tail s)
  else if g_strncasecmp key (bytesOf "deny") 4 = 0 then
    (true, addTokens false (g_strsplit key 0x20 0).tail s)
  else (false, s)

/-- The loop over `list` in `soup_config_token_allowed`: a `NULL` entry or a
    token that is a case-insensitive prefix of `key` gives `!allow`. -/
def tokenLoop (key : List UInt8) (allow : Bool) : List (Option (List UInt8)) → Bool
  | [] => allow
  | none :: _ => !allow
  | some tok :: rest => if g_strncasecmp key tok tok.length = 0 then !allow else tokenLoop key allow rest

/-- `soup_config_token_allowed (key)`. -/
def soup_config_token_allowed (key : List UInt8) (s : AllowDeny) : Bool :=
  let list := if s.allow_policy then s.deny_tokens else s.allow_tokens
  let allow := s.allow_policy
  if list = [] then allow else tokenLoop key allow list

/-- The keys of `soup_config_funcs`; the handlers they name are `configFunc`. -/
def soup_config_funcs : List (List UInt8) :=
  [bytesOf "connection-limit", bytesOf "proxy-uri", bytesOf "proxy-url", bytesOf "security-policy",
    bytesOf "ssl-ca-file", bytesOf "ssl-ca-directory", bytesOf "ssl-certificate"]

/-- What `soup_load_config_internal` does with one line. -/
inductive ConfigLine
  /-- Empty, or a comment. -/
  | skipped
  /-- An `allow` or `deny` line of the system file. -/
  | allow_deny
  /-- A line of the user's file that the system file does not allow: `g_warning`. -/
  | disallowed (item : List UInt8)
  /-- A line without exactly one `=`-separated value. -/
  | malformed
  /-- A `key = value` line whose key no entry of `soup_config_funcs` has. -/
  | unknown (key : List UInt8)
  /-- `funcs->func (key, value)` for the entry with this key; `tail` is what
      `g_strchug` left behind the value's NUL in `split [1]`. -/
  | applied (entry value tail : List UInt8)
  deriving DecidableEq, Repr

/-- The `key = value` part of a line, after the allow/deny checks:
    `g_strsplit` at `=` into at most three pieces, each a copy of its own size,
    and the lookup of the key. -/
def configItem (iter : List UInt8) : ConfigLine :=
  match g_strsplit (g_strchomp iter) 0x3d 2 with
  | [key, value] =>
    let key := g_strchomp key
    match soup_config_funcs.find? (fun entry => g_strcasecmp key entry = 0) with
    | some entry => .applied entry (g_strchug value) (g_strchug_tail value)
    | none => .unknown key
  | _ => .malformed

/-- One pass of the `while (fgets (buf, sizeof (buf), cfg))` loop of
    `soup_load_config_internal`, on the string `buf` holds. -/
def configLine (admin : Bool) (buf : List UInt8) (s : AllowDeny) : ConfigLine × AllowDeny :=
  let iter := g_strstrip buf
  if iter = [] ∨ iter.head? = some 0x23 then (.skipped, s)
  else
    let iter := iter.takeWhile (· ≠ 0x23)
    let (isAllowDeny, s') := if admin then soup_config_allow_deny iter s else (false, s)
    if isAllowDeny then (.allow_deny, s')
    else if !admin && !soup_config_token_allowed iter s then (.disallowed iter, s)
    else (configItem iter, s)

/-- The strings successive `fgets (buf, 128, cfg)` calls leave in `buf` for a
    file of these bytes: a read stops after a newline or after 127 bytes, and
    the string ends at the first NUL read. -/
def fgetsReads (file : List UInt8) : List (List UInt8) :=
  (go file []).map (List.takeWhile (· ≠ 0))
where
  /-- `cur` is the part of the current read so far. -/
  go : List UInt8 → List UInt8 → List (List UInt8)
    | [], cur => if cur = [] then [] else [cur]
    | c :: rest, cur =>
      if c = 0x0a ∨ cur.length + 1 = 127 then (cur ++ [c]) :: go rest [] else go rest (cur ++ [c])

/-- The loop of `soup_load_config_internal` over the lines read. -/
def configLines (admin : Bool) : List (List UInt8) → AllowDeny → List ConfigLine × AllowDeny
  | [], s => ([], s)
  | buf :: bufs, s =>
    let (line, s) := configLine admin buf s
    let (lines, s) := configLines admin bufs s
    (line :: lines, s)

/-- `soup_load_config_internal (config_file, admin)` on the file's bytes, `none`
    when `fopen` fails. -/
def soup_load_config_internal (file : Option (List UInt8)) (admin : Bool) (s : AllowDeny) :
    List ConfigLine × AllowDeny :=
  match file with
  | none => ([], s)
  | some bytes =>
    configLines admin (fgetsReads bytes) (if admin then soup_config_reset_allow_deny s else s)

/-- `soup_load_config (config_file)`, with `SYSCONFDIR` defined: the system file,
    then the given file or the user's `.souprc`. -/
def soup_load_config (system user : Option (List UInt8)) (s : AllowDeny) :
    List ConfigLine × AllowDeny :=
  let (sysLines, s) := soup_load_config_internal system true s
  let (userLines, s) := soup_load_config_internal user false s
  (sysLines ++ userLines, s)

/-- Successive `soup_load_config` calls, each with its system and user files,
    from the globals' initial values. -/
def loadRun (calls : List (Option (List UInt8) × Option (List UInt8))) : AllowDeny :=
  calls.foldl (fun s call => (soup_load_config call.1 call.2 s).2) .initial

/-- An entry of `allow_tokens` or `deny_tokens` matches a line: the `NULL`
    entry always, a token when it is a case-insensitive prefix of the line. -/
def entryMatches (key : List UInt8) : Option (List UInt8) → Bool
  | none => true
  | some tok => decide (tok.map tolower <+: key.map tolower)

/-- Every token in the lists is NUL-free, as a piece of a C string is. -/
def AllowDeny.NulFree (s : AllowDeny) : Prop :=
  ∀ tok, some tok ∈ s.allow_tokens ∨ some tok ∈ s.deny_tokens → 0 ∉ tok

theorem tokenLoop_eq (key : List UInt8) (allow : Bool) : ∀ l : List (Option (List UInt8)),
    (∀ tok, some tok ∈ l → 0 ∉ tok) →
    tokenLoop key allow l = if l.any (entryMatches key) then !allow else allow
  | [], _ => rfl
  | none :: _, _ => rfl
  | some tok :: rest, h => by
    have hrest := tokenLoop_eq key allow rest fun t ht => h t (.tail _ ht)
    simp only [tokenLoop, g_strncasecmp_eq_zero_iff tok (h tok (.head _)), List.any_cons, entryMatches]
    by_cases hp : tok.map tolower <+: key.map tolower
    · simp [hp]
    · simp [hp, hrest]

/-- `soup_config_token_allowed` on NUL-free lists: under `ALLOW_UNLESS_DENIED`
    a line is refused exactly when a deny entry matches it, and under
    `DENY_UNLESS_ALLOWED` it is allowed exactly when an allow entry does. -/
theorem soup_config_token_allowed_eq (key : List UInt8) {s : AllowDeny} (hs : s.NulFree) :
    soup_config_token_allowed key s =
      if s.allow_policy then !(s.deny_tokens.any (entryMatches key))
      else s.allow_tokens.any (entryMatches key) := by
  unfold soup_config_token_allowed
  cases hpol : s.allow_policy with
  | true =>
    simp only [if_true]
    split_ifs with hnil
    · simp [hnil]
    · rw [tokenLoop_eq _ _ _ fun tok h => hs tok (.inr h)]
      cases s.deny_tokens.any (entryMatches key) <;> rfl
  | false =>
    simp only [Bool.false_eq_true, if_false]
    split_ifs with hnil
    · simp [hnil]
    · rw [tokenLoop_eq _ _ _ fun tok h => hs tok (.inl h)]
      cases s.allow_tokens.any (entryMatches key) <;> rfl

theorem splitLoop_sublist (delimiter : UInt8) :
    ∀ (cuts : Nat) (s piece : List UInt8), piece ∈ splitLoop delimiter cuts s → List.Sublist piece s
  | 0, s, piece, h => by
    unfold splitLoop at h
    split_ifs at h
    · simp at h
    · rw [List.mem_singleton.mp h]
  | cuts + 1, s, piece, h => by
    unfold splitLoop at h
    split_ifs at h
    · rcases List.mem_cons.mp h with rfl | h
      · exact List.takeWhile_sublist _
      · exact (splitLoop_sublist delimiter cuts _ piece h).trans
          ((List.drop_sublist _ _).trans (List.dropWhile_sublist _))
    · simp at h
    · rw [List.mem_singleton.mp h]

theorem g_strchomp_sublist (s : List UInt8) : List.Sublist (g_strchomp s) s :=
  List.reverse_sublist.mp (by rw [g_strchomp, List.reverse_reverse]; exact List.dropWhile_sublist _)

theorem g_strstrip_sublist (s : List UInt8) : List.Sublist (g_strstrip s) s :=
  (g_strchomp_sublist _).trans (List.dropWhile_sublist _)

theorem AllowDeny.NulFree.setList {s : AllowDeny} (hs : s.NulFree) (isAllow : Bool) {l : List (Option (List UInt8))}
    (hl : ∀ tok, some tok ∈ l → 0 ∉ tok) : (s.setList isAllow l).NulFree := by
  intro tok htok
  cases isAllow <;> simp only [AllowDeny.setList, Bool.false_eq_true, if_false, if_true] at htok <;>
    rcases htok with h | h
  exacts [hs tok (.inl h), hl tok h, hl tok h, hs tok (.inr h)]

theorem AllowDeny.NulFree.addTokens (isAllow : Bool) : ∀ (toks : List (List UInt8)) {s : AllowDeny},
    s.NulFree → (∀ tok ∈ toks, 0 ∉ tok) → (libsoup.misc.addTokens isAllow toks s).NulFree
  | [], _, hs, _ => hs
  | tok :: toks, s, hs, htoks => by
    unfold libsoup.misc.addTokens
    split_ifs
    · exact hs.setList isAllow (by simp)
    · refine AllowDeny.NulFree.addTokens isAllow toks (hs.setList isAllow ?_) fun t ht => htoks t (.tail _ ht)
      intro t ht
      rcases List.mem_cons.mp ht with h | h
      · cases h; exact htoks tok (.head _)
      · cases isAllow
        exacts [hs t (.inr h), hs t (.inl h)]

theorem AllowDeny.NulFree.allow_deny {key : List UInt8} (hkey : 0 ∉ key) {s : AllowDeny} (hs : s.NulFree) :
    (soup_config_allow_deny key s).2.NulFree := by
  have htoks : ∀ tok ∈ (g_strsplit (g_strchomp key) 0x20 0).tail, 0 ∉ tok := fun tok h h0 =>
    hkey (List.Sublist.subset (List.Sublist.trans (splitLoop_sublist _ _ _ _ (List.mem_of_mem_tail h))
      (g_strchomp_sublist _)) h0)
  simp only [soup_config_allow_deny]
  split_ifs
  exacts [hs.addTokens _ _ htoks, hs.addTokens _ _ htoks, hs]

theorem AllowDeny.NulFree.configLine (admin : Bool) {buf : List UInt8} (hbuf : 0 ∉ buf) {s : AllowDeny}
    (hs : s.NulFree) : (libsoup.misc.configLine admin buf s).2.NulFree := by
  have hkey : 0 ∉ (g_strstrip buf).takeWhile (· ≠ 0x23) := fun h0 =>
    hbuf (List.Sublist.subset (List.Sublist.trans (List.takeWhile_sublist _) (g_strstrip_sublist _)) h0)
  have hstep : (if admin then soup_config_allow_deny ((g_strstrip buf).takeWhile (· ≠ 0x23)) s
      else (false, s)).2.NulFree := by
    split_ifs
    exacts [hs.allow_deny hkey, hs]
  unfold libsoup.misc.configLine
  dsimp only
  generalize (if admin then soup_config_allow_deny ((g_strstrip buf).takeWhile (· ≠ 0x23)) s
      else (false, s)) = p at hstep ⊢
  obtain ⟨isAllowDeny, s'⟩ := p
  dsimp only
  split_ifs <;> assumption

theorem AllowDeny.NulFree.configLines (admin : Bool) : ∀ (bufs : List (List UInt8)) {s : AllowDeny},
    s.NulFree → (∀ buf ∈ bufs, 0 ∉ buf) → (libsoup.misc.configLines admin bufs s).2.NulFree
  | [], _, hs, _ => hs
  | buf :: bufs, _, hs, hbufs =>
    AllowDeny.NulFree.configLines admin bufs (hs.configLine admin (hbufs buf (.head _)))
      fun b hb => hbufs b (.tail _ hb)

theorem fgetsReads_nul (file buf : List UInt8) (h : buf ∈ fgetsReads file) : 0 ∉ buf := by
  obtain ⟨read, -, rfl⟩ := List.mem_map.mp h
  intro h0
  simpa using List.mem_takeWhile_imp h0

theorem AllowDeny.NulFree.load (system user : Option (List UInt8)) {s : AllowDeny} (hs : s.NulFree) :
    (soup_load_config system user s).2.NulFree := by
  have hinternal : ∀ file admin {s : AllowDeny}, s.NulFree →
      (soup_load_config_internal file admin s).2.NulFree := by
    intro file admin s hs
    cases file with
    | none => exact hs
    | some bytes =>
      refine AllowDeny.NulFree.configLines admin _ ?_ (fgetsReads_nul bytes)
      split_ifs
      · intro tok h; simp [soup_config_reset_allow_deny] at h
      · exact hs
  exact hinternal user false (hinternal system true hs)

theorem loadRun_nulFree (calls : List (Option (List UInt8) × Option (List UInt8))) :
    (loadRun calls).NulFree := by
  have hrun : ∀ (calls : List (Option (List UInt8) × Option (List UInt8))) (s : AllowDeny), s.NulFree →
      (calls.foldl (fun s call => (soup_load_config call.1 call.2 s).2) s).NulFree := by
    intro calls
    induction calls with
    | nil => exact fun _ hs => hs
    | cons call calls ih => exact fun s hs => ih _ (hs.load call.1 call.2)
  exact hrun calls _ (fun tok h => by simp [AllowDeny.initial] at h)

/-- After any sequence of `soup_load_config` calls, a line of a user file is
    refused under `ALLOW_UNLESS_DENIED` exactly when a deny entry (a
    case-insensitive prefix of it, or the `NULL` that `all` leaves) matches it,
    and allowed under `DENY_UNLESS_ALLOWED` exactly when an allow entry does. -/
theorem loadRun_token_allowed (calls : List (Option (List UInt8) × Option (List UInt8)))
    (key : List UInt8) :
    soup_config_token_allowed key (loadRun calls) =
      if (loadRun calls).allow_policy then !((loadRun calls).deny_tokens.any (entryMatches key))
      else (loadRun calls).allow_tokens.any (entryMatches key) :=
  soup_config_token_allowed_eq key (loadRun_nulFree calls)

theorem configLines_user (bufs : List (List UInt8)) (s : AllowDeny) : (configLines false bufs s).2 = s := by
  induction bufs generalizing s with
  | nil => rfl
  | cons buf bufs ih =>
    have hline : (configLine false buf s).2 = s := by
      unfold configLine
      dsimp only
      split_ifs <;> first | contradiction | rfl
    show (configLines false bufs (configLine false buf s).2).2 = s
    rw [ih, hline]

/-- Only the system file changes the allow/deny globals: the user's file is read
    with `admin` false, and a system file that does not open leaves them as
    they were. -/
theorem soup_load_config_state (system user : Option (List UInt8)) (s : AllowDeny) :
    (soup_load_config system user s).2 = (soup_load_config_internal system true s).2 := by
  cases user <;> simp [soup_load_config, soup_load_config_internal, configLines_user]

/-- A system file that opens empties both lists before its lines are read, so
    what `soup_load_config` does depends on the calls before it only through
    `allow_policy`. -/
theorem soup_load_config_frame (system : List UInt8) (user : Option (List UInt8)) {s1 s2 : AllowDeny}
    (h : s1.allow_policy = s2.allow_policy) :
    soup_load_config (some system) user s1 = soup_load_config (some system) user s2 := by
  have hreset : soup_config_reset_allow_deny s1 = soup_config_reset_allow_deny s2 := by
    cases s1; cases s2; cases h; rfl
  simp only [soup_load_config, soup_load_config_internal, if_true, hreset]

theorem soup_load_config_frame_deny :
    AllowDeny.initial.allow_policy = (⟨true, [some (bytesOf "foo")], [none]⟩ : AllowDeny).allow_policy ∧
      soup_load_config (some (bytesOf "deny bar\n")) none .initial =
        soup_load_config (some (bytesOf "deny bar\n")) none ⟨true, [some (bytesOf "foo")], [none]⟩ :=
  ⟨rfl, soup_load_config_frame _ _ rfl⟩

/-- Two system files that break the allow/deny rules. `allow_policy` outlives
    `soup_config_reset_allow_deny`: after a file that ends in `deny all`, a file
    of `deny` lines alone refuses every other line, which it allows when it is
    the first file read. And `deny all`, read while both lists are still empty,
    compares two `NULL` heads and leaves `ALLOW_UNLESS_DENIED`, under which its
    `NULL` entry refuses a line that an `allow` token is a prefix of. -/
theorem loadRun_token_allowed_history :
    soup_config_token_allowed (bytesOf "baz=1")
        (loadRun [(some (bytesOf "allow foo\ndeny all\n"), none), (some (bytesOf "deny bar\n"), none)]) =
        false ∧
      soup_config_token_allowed (bytesOf "baz=1") (loadRun [(some (bytesOf "deny bar\n"), none)]) = true ∧
      soup_config_token_allowed (bytesOf "foo=1") (loadRun [(some (bytesOf "deny all\nallow foo\n"), none)]) =
        false := by
  decide

end libsoup.misc
