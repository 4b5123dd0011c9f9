import Gatehouse.Settings

/-!
# What a node sets

Every setting has a key, which gives its nodes their name and says what their first argument is to be
(`Key.Reads`). A node either sets one key to one value or has one thing wrong with it
(`valid_or_offends`), whatever was set before (`Sets.apply`, `Offends.apply`).
-/

namespace Gatehouse.Settings

/-- What can be set. -/
inductive Key where
  | listen
  | externalHostname
  | watched
  | maxConcurrentJobs
  | logFormat
  | requeueSeconds
  deriving DecidableEq

namespace Key

/-- The name of the nodes for a key. -/
def name : Key → String
  | listen => "listen"
  | externalHostname => "external-hostname"
  | watched => "namespace"
  | maxConcurrentJobs => "max-concurrent-jobs"
  | logFormat => "log-format"
  | requeueSeconds => "requeue-seconds"

theorem name_injective : Function.Injective name := by
  intro k k' same
  cases k <;> cases k' <;> first | rfl | simp [name] at same

/-- What a key is set to. -/
abbrev Value : Key → Type
  | listen => Net.SocketAddress
  | externalHostname => Option String
  | watched => Option String
  | maxConcurrentJobs => Nat
  | logFormat => LogFormat
  | requeueSeconds => Nat

/-- Is a key set to a number? -/
def counts : Key → Bool
  | maxConcurrentJobs => true
  | requeueSeconds => true
  | _ => false

/-- What an argument stands for that is right for its key. -/
inductive Reads : (k : Key) → Kdl.Value → k.Value → Prop
  | listen {s : String} {a : Net.SocketAddress} (address : Net.SocketAddress.parse? s = some a) :
      Reads listen (.text s) a
  | externalHostname (host : String) : Reads externalHostname (.text host) (some host)
  | watched (ns : String) : Reads watched (.text ns) (some ns)
  | maxConcurrentJobs {n : Nat} (positive : 1 ≤ n) (small : n < UInt64.size) :
      Reads maxConcurrentJobs (.integer n) n
  | logFormat (form : LogFormat) : Reads logFormat (.text form.name) form
  | requeueSeconds {n : Nat} (positive : 1 ≤ n) (small : n < UInt64.size) :
      Reads requeueSeconds (.integer n) n

/-- The number that a key is set to, if it is one. -/
def number? : (k : Key) → k.Value → Option Nat
  | maxConcurrentJobs, n => some n
  | requeueSeconds, n => some n
  | _, _ => none

theorem Reads.number {k : Key} {w : Kdl.Value} {v : k.Value} {n : Nat} (reads : k.Reads w v)
    (number : k.number? v = some n) : 1 ≤ n ∧ w = .integer n := by
  cases reads with
  | maxConcurrentJobs positive small | requeueSeconds positive small =>
    obtain rfl := Option.some.inj number
    exact ⟨positive, rfl⟩
  | _ => cases number

end Key

/-- A node sets a key to a value. -/
structure Sets (node : Kdl.Node) (k : Key) (v : k.Value) : Prop where
  name : k.name = node.name
  argument : ∃ w, node.argument? = some w ∧ k.Reads w v

/-- A node has a known name and an argument that is right for it. -/
def Valid (node : Kdl.Node) : Prop := ∃ k v, Sets node k v

/-- What is wrong with a node. -/
inductive Offends (node : Kdl.Node) : Error → Prop
  | unknown (other : ∀ k : Key, k.name ≠ node.name) : Offends node (.unknown node.name)
  | noText {k : Key} (known : k.name = node.name) (worded : k.counts = false)
      (missing : ∀ s, node.argument? ≠ some (.text s)) : Offends node (.missing node.name)
  | noInteger {k : Key} (known : k.name = node.name) (counted : k.counts = true)
      (missing : ∀ n, node.argument? ≠ some (.integer n)) : Offends node (.missing node.name)
  | address {s : String} (known : Key.listen.name = node.name)
      (given : node.argument? = some (.text s)) (bad : Net.SocketAddress.parse? s = none) :
      Offends node (.invalid node.name (s ++ ": invalid socket address syntax"))
  | format {s : String} (known : Key.logFormat.name = node.name)
      (given : node.argument? = some (.text s)) (bad : ∀ form : LogFormat, form.name ≠ s) :
      Offends node (.invalid node.name ("expected \"text\" or \"json\", got \"" ++ s ++ "\""))
  | small {k : Key} {n : Int} (known : k.name = node.name) (counted : k.counts = true)
      (given : node.argument? = some (.integer n)) (bad : n < 1) :
      Offends node (.invalid node.name ("must be at least 1, got " ++ toString n))
  | large {k : Key} {n : Int} (known : k.name = node.name) (counted : k.counts = true)
      (given : node.argument? = some (.integer n)) (bad : UInt64.size ≤ n) :
      Offends node (.invalid node.name "number too large to fit in target type")

variable {s s' : Settings} {node : Kdl.Node} {k k' : Key} {e : Error}

/-! Settings by their keys. -/

/-- What a key is set to. -/
def get (s : Settings) : (k : Key) → k.Value
  | .listen => s.listen
  | .externalHostname => s.externalHostname
  | .watched => s.watched
  | .maxConcurrentJobs => s.maxConcurrentJobs
  | .logFormat => s.logFormat
  | .requeueSeconds => s.requeueSeconds

/-- Set a key to a value. -/
def put (s : Settings) : (k : Key) → k.Value → Settings
  | .listen, v => { s with listen := v }
  | .externalHostname, v => { s with externalHostname := v }
  | .watched, v => { s with watched := v }
  | .maxConcurrentJobs, v => { s with maxConcurrentJobs := v }
  | .logFormat, v => { s with logFormat := v }
  | .requeueSeconds, v => { s with requeueSeconds := v }

@[simp] theorem get_put (s : Settings) (k : Key) (v : k.Value) : (s.put k v).get k = v := by
  cases k <;> rfl

theorem get_put_of_ne (other : k' ≠ k) (s : Settings) (v : k.Value) :
    (s.put k v).get k' = s.get k' := by
  cases k <;> cases k' <;> first | rfl | exact absurd rfl other

theorem ext_get (same : ∀ k, s.get k = s'.get k) : s = s' := by
  obtain ⟨l, h, w, m, f, r⟩ := s
  obtain ⟨l', h', w', m', f', r'⟩ := s'
  obtain rfl : l = l' := same .listen
  obtain rfl : h = h' := same .externalHostname
  obtain rfl : w = w' := same .watched
  obtain rfl : m = m' := same .maxConcurrentJobs
  obtain rfl : f = f' := same .logFormat
  obtain rfl : r = r' := same .requeueSeconds
  rfl

theorem number_default {n : Nat} (number : k.number? (get {} k) = some n) : 1 ≤ n := by
  cases k with
  | maxConcurrentJobs | requeueSeconds =>
    obtain rfl := Option.some.inj number
    decide
  | _ => cases number

/-! Nodes that are applied. -/

theorem text_given {t : String} (given : node.argument? = some (.text t)) : text node = .ok t := by
  rw [text, given]
  rfl

theorem text_missing (missing : ∀ t, node.argument? ≠ some (.text t)) :
    text node = .error (.missing node.name) := by
  unfold text
  cases given : node.argument? with
  | none => rfl
  | some w =>
    cases w with
    | text t => exact absurd given (missing t)
    | _ => rfl

theorem count_given {n : Int} (given : node.argument? = some (.integer n)) :
    count node =
      if n < 1 then .error (.invalid node.name ("must be at least 1, got " ++ toString n))
      else if n < UInt64.size then .ok n.toNat
      else .error (.invalid node.name "number too large to fit in target type") := by
  rw [count, given]
  rfl

theorem count_missing (missing : ∀ n, node.argument? ≠ some (.integer n)) :
    count node = .error (.missing node.name) := by
  unfold count
  cases given : node.argument? with
  | none => rfl
  | some w =>
    cases w with
    | integer n => exact absurd given (missing n)
    | _ => rfl

/-- What a node sets a key to. -/
def Key.read : (k : Key) → Kdl.Node → Except Error k.Value
  | .listen, node => address node
  | .externalHostname, node => some <$> text node
  | .watched, node => some <$> text node
  | .maxConcurrentJobs, node => count node
  | .logFormat, node => format node
  | .requeueSeconds, node => count node

theorem apply_known (known : k.name = node.name) (s : Settings) :
    s.apply node = s.put k <$> k.read node := by
  unfold apply
  rw [← known]
  cases k <;> simp only [Key.name, Key.read, map_eq_pure_bind, bind_assoc, pure_bind, put]

theorem apply_unknown (other : ∀ k : Key, k.name ≠ node.name) (s : Settings) :
    s.apply node = .error (.unknown node.name) := by
  unfold apply
  split
  · exact absurd (Eq.symm ‹_›) (other .listen)
  · exact absurd (Eq.symm ‹_›) (other .externalHostname)
  · exact absurd (Eq.symm ‹_›) (other .watched)
  · exact absurd (Eq.symm ‹_›) (other .maxConcurrentJobs)
  · exact absurd (Eq.symm ‹_›) (other .logFormat)
  · exact absurd (Eq.symm ‹_›) (other .requeueSeconds)
  · rfl

theorem read_given {w : Kdl.Value} {v : k.Value} (given : node.argument? = some w)
    (reads : k.Reads w v) : k.read node = .ok v := by
  cases reads with
  | listen right => simp only [Key.read, address, text_given given, right, bind, Except.bind]
  | externalHostname | watched =>
    rw [Key.read, text_given given]
    rfl
  | logFormat form =>
    rw [Key.read, format, text_given given]
    cases form <;> rfl
  | maxConcurrentJobs positive small | requeueSeconds positive small =>
    rw [Key.read, count_given given, if_neg (by omega), if_pos (by omega)]
    rfl

theorem Sets.apply {v : k.Value} (sets : Sets node k v) (s : Settings) :
    s.apply node = .ok (s.put k v) := by
  obtain ⟨known, w, given, reads⟩ := sets
  rw [apply_known known, read_given given reads]
  rfl

/-- A node sets a key to one value only. -/
theorem Sets.unique {v w : k.Value} (sets : Sets node k v) (again : Sets node k w) : v = w := by
  have same : put {} k v = put {} k w := Except.ok.inj ((sets.apply {}).symm.trans (again.apply {}))
  rw [← get_put {} k v, same, get_put]

theorem read_no_text (worded : k.counts = false) (missing : ∀ t, node.argument? ≠ some (.text t)) :
    k.read node = .error (.missing node.name) := by
  cases k with
  | listen =>
    rw [Key.read, address, text_missing missing]
    rfl
  | logFormat =>
    rw [Key.read, format, text_missing missing]
    rfl
  | externalHostname | watched =>
    rw [Key.read, text_missing missing]
    rfl
  | maxConcurrentJobs | requeueSeconds => cases worded

theorem read_counts (counted : k.counts = true) (before : count node = .error e) :
    k.read node = .error e := by
  cases k with
  | maxConcurrentJobs | requeueSeconds => exact before
  | _ => cases counted

theorem Offends.apply (offends : Offends node e) (s : Settings) : s.apply node = .error e := by
  have refused {k : Key} (known : k.name = node.name) (bad : k.read node = .error e) :
      s.apply node = .error e := by
    rw [apply_known known, bad]
    rfl
  cases offends with
  | unknown other => exact apply_unknown other s
  | noText known worded missing => exact refused known (read_no_text worded missing)
  | noInteger known counted missing => exact refused known (read_counts counted (count_missing missing))
  | address known given bad =>
    refine refused known ?_
    simp only [Key.read, Settings.address, text_given given, bad, bind, Except.bind]
  | format known given bad =>
    refine refused known ?_
    simp only [Key.read, Settings.format, text_given given, bind, Except.bind]
    split
    · exact absurd rfl (bad .text)
    · exact absurd rfl (bad .json)
    · rfl
  | small known counted given bad =>
    exact refused known (read_counts counted (by rw [count_given given, if_pos bad]))
  | large known counted given bad =>
    have size : (1 : Int) ≤ UInt64.size := by decide
    refine refused known (read_counts counted ?_)
    rw [count_given given, if_neg (by omega), if_neg (by omega)]

theorem counted_cases (known : k.name = node.name) (counted : k.counts = true) :
    Valid node ∨ ∃ e, Offends node e := by
  by_cases missing : ∀ n, node.argument? ≠ some (.integer n)
  · exact .inr ⟨_, .noInteger known counted missing⟩
  obtain ⟨n, given⟩ : ∃ n, node.argument? = some (.integer n) := by simpa using missing
  by_cases small : n < 1
  · exact .inr ⟨_, .small known counted given small⟩
  by_cases large : UInt64.size ≤ n
  · exact .inr ⟨_, .large known counted given large⟩
  obtain ⟨n, rfl⟩ := Int.eq_ofNat_of_zero_le (show 0 ≤ n by omega)
  have reads : ∃ v, k.Reads (.integer n) v := by
    cases k with
    | maxConcurrentJobs => exact ⟨n, .maxConcurrentJobs (by omega) (by omega)⟩
    | requeueSeconds => exact ⟨n, .requeueSeconds (by omega) (by omega)⟩
    | _ => cases counted
  obtain ⟨v, reads⟩ := reads
  exact .inl ⟨k, v, known, _, given, reads⟩

theorem worded_cases (known : k.name = node.name) (worded : k.counts = false) :
    Valid node ∨ ∃ e, Offends node e := by
  by_cases missing : ∀ t, node.argument? ≠ some (.text t)
  · exact .inr ⟨_, .noText known worded missing⟩
  obtain ⟨t, given⟩ : ∃ t, node.argument? = some (.text t) := by simpa using missing
  cases k with
  | listen =>
    cases address : Net.SocketAddress.parse? t with
    | none => exact .inr ⟨_, .address known given address⟩
    | some a => exact .inl ⟨_, a, known, _, given, .listen address⟩
  | externalHostname => exact .inl ⟨_, _, known, _, given, .externalHostname t⟩
  | watched => exact .inl ⟨_, _, known, _, given, .watched t⟩
  | logFormat =>
    by_cases bad : ∀ form : LogFormat, form.name ≠ t
    · exact .inr ⟨_, .format known given bad⟩
    obtain ⟨form, rfl⟩ : ∃ form : LogFormat, form.name = t := by simpa using bad
    exact .inl ⟨_, _, known, _, given, .logFormat form⟩
  | maxConcurrentJobs | requeueSeconds => cases worded

/-- Nothing else can be wrong with a node. -/
theorem valid_or_offends (node : Kdl.Node) : Valid node ∨ ∃ e, Offends node e := by
  by_cases unknown : ∀ k : Key, k.name ≠ node.name
  · exact .inr ⟨_, .unknown unknown⟩
  obtain ⟨k, known⟩ : ∃ k : Key, k.name = node.name := by simpa using unknown
  cases kind : k.counts with
  | true => exact counted_cases known kind
  | false => exact worded_cases known kind

end Gatehouse.Settings
