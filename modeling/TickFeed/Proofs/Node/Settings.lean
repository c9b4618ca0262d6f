import Mathlib.Data.List.Nodup
import TickFeed.Node.Config
import TickFeed.Proofs.Node.CommandLine

/-! # Layers of settings

A setting has a default, a variable over it and, in most cases, an option over both. The parts of
the node are given, for each setting, the uppermost of these that is there and can be read
(`get_ofOptions`). No two settings share a variable or an option, so a setting that changes leaves
the others as they are (`uppermost_layer_counts`). -/

namespace TickFeed

inductive NodeSetting where
  | queueCapacity
  | pollInterval
  | stopGrace
  | subscriberTimeout
  | warningPercent
  | criticalPercent
  | preferredExchange
  | cancelCheckEvery
  | rate (c : CallClass)
  | burst (c : CallClass)
deriving DecidableEq

namespace NodeSetting

abbrev Value : NodeSetting → Type
  | .queueCapacity | .cancelCheckEvery => Nat
  | .pollInterval | .stopGrace => Duration
  | .subscriberTimeout => Option Duration
  | .warningPercent | .criticalPercent | .rate _ => Binary64
  | .preferredExchange => Exchange
  | .burst _ => UInt32

/-- The value that the parts of the node are given. -/
def get (config : NodeConfig) : (s : NodeSetting) → s.Value
  | .queueCapacity => config.bridge.queueCapacity
  | .pollInterval => config.bridge.pollInterval
  | .stopGrace => config.bridge.stopGrace
  | .subscriberTimeout => config.bridge.subscriberTimeout
  | .warningPercent => config.bridge.warningPercent
  | .criticalPercent => config.bridge.criticalPercent
  | .preferredExchange => config.catalog.preferredExchange
  | .cancelCheckEvery => config.catalog.cancelCheckEvery
  | .rate c => (config.rateLimits.get c).rate
  | .burst c => (config.rateLimits.get c).capacity

/-! ## Layers -/

def default : (s : NodeSetting) → s.Value
  | .queueCapacity => (10000 : Nat)
  | .pollInterval => .ofSeconds 1
  | .stopGrace => .ofSeconds 2
  | .subscriberTimeout => none
  | .warningPercent => (80 : Binary64)
  | .criticalPercent => (95 : Binary64)
  | .preferredExchange => .nse
  | .cancelCheckEvery => (4096 : Nat)
  | .rate .historical => (3 : Binary64)
  | .rate .orderPlacement | .rate .quote => (10 : Binary64)
  | .burst .historical => (3 : UInt32)
  | .burst .orderPlacement | .burst .quote => (10 : UInt32)

def variableName : NodeSetting → String
  | .queueCapacity => "FEED_QUEUE_CAPACITY"
  | .pollInterval => "FEED_POLL_INTERVAL_MS"
  | .stopGrace => "FEED_STOP_GRACE_MS"
  | .subscriberTimeout => "FEED_SUBSCRIBER_TIMEOUT_MS"
  | .warningPercent => "FEED_WARNING_PCT"
  | .criticalPercent => "FEED_CRITICAL_PCT"
  | .preferredExchange => "CATALOG_PREFERRED_EXCHANGE"
  | .cancelCheckEvery => "CATALOG_CANCEL_CHECK_EVERY"
  | .rate .historical => "RATE_LIMIT_HISTORICAL_RATE"
  | .rate .orderPlacement => "RATE_LIMIT_ORDER_RATE"
  | .rate .quote => "RATE_LIMIT_QUOTE_RATE"
  | .burst .historical => "RATE_LIMIT_HISTORICAL_BURST"
  | .burst .orderPlacement => "RATE_LIMIT_ORDER_BURST"
  | .burst .quote => "RATE_LIMIT_QUOTE_BURST"

def option? : NodeSetting → Option NodeOption
  | .queueCapacity => some .queueCapacity
  | .pollInterval => some .pollIntervalMs
  | .stopGrace => some .stopGraceMs
  | .subscriberTimeout => some .subscriberTimeoutMs
  | .preferredExchange => some .preferredExchange
  | .rate .historical => some .historicalRate
  | .rate .orderPlacement => some .orderRate
  | .rate .quote => some .quoteRate
  | .burst .historical => some .historicalBurst
  | .burst .orderPlacement => some .orderBurst
  | .burst .quote => some .quoteBurst
  | .warningPercent | .criticalPercent | .cancelCheckEvery => none

/-- A number of milliseconds, of which zero is no limit. -/
def limitOf (milliseconds : Nat) : Option Duration :=
  if milliseconds = 0 then none else some (.ofMilliseconds milliseconds)

/-- The value in the text of a variable. Blank text names no exchange. -/
def ofVariable? : (s : NodeSetting) → String → Option s.Value
  | .queueCapacity | .cancelCheckEvery => Text.unsigned? 64
  | .pollInterval | .stopGrace => fun t => (Text.unsigned? 64 t).map Duration.ofMilliseconds
  | .subscriberTimeout => fun t => (Text.unsigned? 64 t).map limitOf
  | .warningPercent | .criticalPercent | .rate _ => Binary64.read?
  | .preferredExchange => fun t => if Text.trim t = "" then none else some (.ofCode t)
  | .burst _ => Text.uint32?

/-- The value in the text of an option, where any text names an exchange. -/
def ofOption? : (s : NodeSetting) → String → Option s.Value
  | .preferredExchange => fun t => some (.ofCode t)
  | .burst _ => NodeOption.burst?
  | s => s.ofVariable?

def given? (s : NodeSetting) (os : NodeOptions) : Option String := s.option?.bind os.get?

/-- The value in its variable, when that is set and can be read. -/
def found? (s : NodeSetting) (env : Environment) : Option s.Value :=
  (env s.variableName).bind s.ofVariable?

/-! ## The uppermost layer -/

variable {s t : NodeSetting} {os os' : NodeOptions} {env env' : Environment} {o : NodeOption}
  {text : String}

theorem overlay_overlay {α : Type} (os : NodeOptions) (env : Environment) (o : NodeOption)
    (name : String) (ofOption? ofVariable? : String → Option α) (value : α) :
    os.overlay o ofOption? (env.overlay name ofVariable? value) =
      (((os.get? o).bind ofOption?).or ((env name).bind ofVariable?)).getD value := by
  unfold NodeOptions.overlay Environment.overlay
  cases (os.get? o).bind ofOption? <;> rfl

theorem timeoutOf_ofMilliseconds (n : Nat) :
    BridgeConfig.timeoutOf (.ofMilliseconds n) = limitOf n := by
  unfold BridgeConfig.timeoutOf limitOf Duration.ofMilliseconds
  refine if_congr ?_ rfl rfl
  show n * 10 ^ 6 = 0 ↔ n = 0
  omega

/-- The limit that a number of milliseconds sets, by way of a length of time. -/
theorem map_timeoutOf :
    (fun t => (BridgeConfig.milliseconds? t).map BridgeConfig.timeoutOf) =
      ofVariable? .subscriberTimeout := by
  have hlimit : BridgeConfig.timeoutOf ∘ Duration.ofMilliseconds = limitOf := by
    funext n
    rw [Function.comp_apply, timeoutOf_ofMilliseconds]
  simp only [BridgeConfig.milliseconds?, Option.map_map, hlimit]
  rfl

theorem variableName_rate (c : CallClass) :
    RateLimitConfig.variableStem c ++ "_RATE" = variableName (.rate c) := by
  cases c <;> decide

theorem variableName_burst (c : CallClass) :
    RateLimitConfig.variableStem c ++ "_BURST" = variableName (.burst c) := by
  cases c <;> decide

/-- The limits are made class by class, and each class has layers of its own. -/
theorem get_rateLimitsOf (os : NodeOptions) (env : Environment) (c : CallClass) :
    (NodeConfig.rateLimitsOf os env).get c =
      { rate := os.overlay (NodeConfig.rateOption c) Binary64.read?
          (env.overlay (variableName (.rate c)) Binary64.read? (default (.rate c)))
        capacity := os.overlay (NodeConfig.burstOption c) NodeOption.burst?
          (env.overlay (variableName (.burst c)) Text.uint32? (default (.burst c))) } := by
  rw [NodeConfig.rateLimitsOf, PerClass.get_update, RateLimitConfig.ofEnvironment,
    PerClass.get_update, variableName_rate, variableName_burst]
  cases c <;> rfl

/-- The uppermost layer that is there and can be read. -/
theorem get_ofOptions (s : NodeSetting) (os : NodeOptions) (env : Environment) :
    s.get (.ofOptions os env) =
      (((s.given? os).bind s.ofOption?).or (s.found? env)).getD s.default := by
  cases s with
  | queueCapacity | pollInterval | stopGrace | preferredExchange => exact overlay_overlay ..
  | warningPercent | criticalPercent | cancelCheckEvery => rfl
  | subscriberTimeout =>
    show os.overlay _ (fun t => (BridgeConfig.milliseconds? t).map BridgeConfig.timeoutOf)
      (env.overlay _ (fun t => (BridgeConfig.milliseconds? t).map BridgeConfig.timeoutOf) _) = _
    rw [map_timeoutOf]
    exact overlay_overlay ..
  | rate c | burst c =>
    rw [get, NodeConfig.ofOptions, get_rateLimitsOf]
    cases c <;> exact overlay_overlay ..

/-! ## Values that say nothing -/

theorem ofVariable?_zero (h : Text.unsigned? 64 text = some 0) :
    ofVariable? .subscriberTimeout text = some none := by
  show (Text.unsigned? 64 text).map limitOf = some none
  rw [h]
  rfl

theorem ofVariable?_blank (h : Text.trim text = "") :
    ofVariable? .preferredExchange text = none := if_pos h

/-! ## The layer of the options -/

theorem isSome_of_reject? (ho : s.option? = some o) (hfit : o.reject? text = none) :
    (s.ofOption? text).isSome := by
  have hrequire : ∀ {readable : Bool} {e : UsageError},
      (if readable then none else some e) = none → readable = true := by
    intro readable e h
    cases readable with
    | true => rfl
    | false => cases h
  cases s with
  | queueCapacity =>
    cases ho
    exact hrequire hfit
  | pollInterval | stopGrace | subscriberTimeout =>
    cases ho
    exact (Option.isSome_map ..).trans (hrequire hfit)
  | preferredExchange => rfl
  | rate c | burst c => cases c <;> cases ho <;> exact hrequire hfit
  | warningPercent | criticalPercent | cancelCheckEvery => cases ho

/-- An option that is given can be read, and its value is the one that counts. -/
theorem ofOption?_eq_get (hos : os.Readable) (env : Environment)
    (h : s.given? os = some text) : s.ofOption? text = some (s.get (.ofOptions os env)) := by
  obtain ⟨o, ho, hget⟩ := Option.bind_eq_some_iff.mp h
  obtain ⟨value, hvalue⟩ := Option.isSome_iff_exists.mp (isSome_of_reject? ho (hos o text hget))
  rw [get_ofOptions, h, Option.bind_some, hvalue, Option.some_or, Option.getD_some]

/-! ## The layer of the variables -/

theorem get_of_not_given (h : s.given? os = none) :
    s.get (.ofOptions os env) = (s.found? env).getD s.default := by
  rw [get_ofOptions, h, Option.bind_none, Option.none_or]

/-! ## Settings do not interfere -/

theorem get_congr (hoption : s.given? os' = s.given? os)
    (hvariable : env' s.variableName = env s.variableName) :
    s.get (.ofOptions os' env') = s.get (.ofOptions os env) := by
  rw [get_ofOptions, get_ofOptions, hoption, found?, hvariable, found?]

def all : List NodeSetting :=
  [.queueCapacity, .pollInterval, .stopGrace, .subscriberTimeout, .warningPercent,
    .criticalPercent, .preferredExchange, .cancelCheckEvery] ++
    CallClass.all.map .rate ++ CallClass.all.map .burst

theorem mem_all (s : NodeSetting) : s ∈ all := by
  cases s with
  | rate c | burst c => cases c <;> decide
  | _ => decide

/-- No two settings share a variable. -/
theorem variableName_injective (h : s.variableName = t.variableName) : s = t :=
  List.inj_on_of_nodup_map (by decide : (all.map variableName).Nodup) s.mem_all t.mem_all h

/-- No two settings share an option. -/
theorem option?_injective (hs : s.option? = some o) (ht : t.option? = some o) : s = t := by
  have hnodup : ((all.filter (·.option?.isSome)).map option?).Nodup := by decide
  have hmem : ∀ {u : NodeSetting}, u.option? = some o → u ∈ all.filter (·.option?.isSome) := by
    intro u hu
    simp [u.mem_all, hu]
  exact List.inj_on_of_nodup_map hnodup (hmem hs) (hmem ht) (hs.trans ht.symm)

/-- A setting that changes leaves the others as they are. -/
theorem get_of_ne (hne : s ≠ t) (hoptions : ∀ o, s.option? ≠ some o → os'.get? o = os.get? o)
    (hvariables : ∀ name, name ≠ s.variableName → env' name = env name) :
    t.get (.ofOptions os' env') = t.get (.ofOptions os env) := by
  refine get_congr ?_ (hvariables _ fun h => hne (variableName_injective h).symm)
  unfold given?
  cases ht : t.option? with
  | none => rfl
  | some o => exact hoptions o fun hs => hne (option?_injective hs ht)

theorem latencyWindow_ofOptions (os : NodeOptions) (env : Environment) :
    (NodeConfig.ofOptions os env).bridge.latencyWindow = 1000 := rfl

/-- What can be set is all there is to the parts, but for a window of fixed size. -/
theorem parts_eq {c c' : NodeConfig} (h : ∀ s : NodeSetting, s.get c = s.get c')
    (hwindow : c.bridge.latencyWindow = c'.bridge.latencyWindow) :
    c.bridge = c'.bridge ∧ c.catalog = c'.catalog ∧ c.rateLimits = c'.rateLimits := by
  have hlimit (k : CallClass) : c.rateLimits.get k = c'.rateLimits.get k :=
    (RateLimit.mk.injEq ..).mpr ⟨h (.rate k), h (.burst k)⟩
  refine ⟨?_, ?_, ?_⟩
  · exact (BridgeConfig.mk.injEq ..).mpr ⟨h .queueCapacity, h .pollInterval, h .stopGrace,
      h .subscriberTimeout, h .warningPercent, h .criticalPercent, hwindow⟩
  · exact (CatalogConfig.mk.injEq ..).mpr ⟨h .preferredExchange, h .cancelCheckEvery⟩
  · exact (PerClass.mk.injEq ..).mpr ⟨hlimit .historical, hlimit .orderPlacement, hlimit .quote⟩

/-- The setting of a part is the value of its option, else what its variable says, else its
default. Zero, in the layer that counts, is no limit for subscribers, and blank text is no
exchange. Nothing but its own option and its own variable makes a setting, so what changes one of
them changes no other setting, and these settings are all that options and variables make of the
parts. -/
theorem uppermost_layer_counts {os : NodeOptions} (hos : os.Readable) (env : Environment) :
    let config := NodeConfig.ofOptions os env
    (∀ (s : NodeSetting) text, s.given? os = some text →
      s.ofOption? text = some (s.get config)) ∧
    (∀ s : NodeSetting, s.given? os = none → s.get config = (s.found? env).getD s.default) ∧
    (∀ text, os.get? .subscriberTimeoutMs = some text → Text.unsigned? 64 text = some 0 →
      config.bridge.subscriberTimeout = none) ∧
    (∀ text, os.get? .subscriberTimeoutMs = none →
      env "FEED_SUBSCRIBER_TIMEOUT_MS" = some text → Text.unsigned? 64 text = some 0 →
      config.bridge.subscriberTimeout = none) ∧
    (∀ text, os.get? .preferredExchange = none →
      env "CATALOG_PREFERRED_EXCHANGE" = some text → Text.trim text = "" →
      config.catalog.preferredExchange = .nse) ∧
    config.bridge.latencyWindow = 1000 ∧
    ∀ os' env',
      let config' := NodeConfig.ofOptions os' env'
      (∀ s : NodeSetting, s.given? os' = s.given? os →
        env' s.variableName = env s.variableName → s.get config' = s.get config) ∧
      (∀ s : NodeSetting, (∀ o, s.option? ≠ some o → os'.get? o = os.get? o) →
        (∀ name, name ≠ s.variableName → env' name = env name) →
        ∀ t, s ≠ t → t.get config' = t.get config) ∧
      ((∀ s : NodeSetting, s.given? os' = s.given? os ∧
          env' s.variableName = env s.variableName) →
        config'.bridge = config.bridge ∧ config'.catalog = config.catalog ∧
          config'.rateLimits = config.rateLimits) := by
  intro config
  refine ⟨fun s text h => ofOption?_eq_get hos env h, fun s h => get_of_not_given h, ?_, ?_, ?_,
    latencyWindow_ofOptions os env, ?_⟩
  · intro text hgiven hzero
    have hvalue : ofVariable? .subscriberTimeout text = some (get config .subscriberTimeout) :=
      ofOption?_eq_get (s := .subscriberTimeout) hos env hgiven
    exact (Option.some.inj ((ofVariable?_zero hzero).symm.trans hvalue)).symm
  · intro text hgiven hset hzero
    have hfound : found? .subscriberTimeout env = some none :=
      Option.bind_eq_some_iff.mpr ⟨text, hset, ofVariable?_zero hzero⟩
    have hget : get config .subscriberTimeout = _ := get_of_not_given hgiven
    rwa [hfound] at hget
  · intro text hgiven hset hblank
    have hfound : found? .preferredExchange env = none := by
      rw [found?, variableName, hset, Option.bind_some, ofVariable?_blank hblank]
    have hget : get config .preferredExchange = _ := get_of_not_given hgiven
    rwa [hfound] at hget
  · intro os' env' config'
    have hown (s : NodeSetting) (hoption : s.given? os' = s.given? os)
        (hvariable : env' s.variableName = env s.variableName) : s.get config' = s.get config :=
      get_congr hoption hvariable
    have hwindow : config'.bridge.latencyWindow = config.bridge.latencyWindow :=
      (latencyWindow_ofOptions os' env').trans (latencyWindow_ofOptions os env).symm
    exact ⟨hown, fun s hoptions hvariables t hne => get_of_ne hne hoptions hvariables,
      fun h => parts_eq (fun s => hown s (h s).1 (h s).2) hwindow⟩

theorem uppermost_layer_counts_of_words :
    let env : Environment := fun name =>
      [("FEED_QUEUE_CAPACITY", "32"), ("FEED_SUBSCRIBER_TIMEOUT_MS", "500"),
        ("FEED_STOP_GRACE_MS", "soon"), ("RATE_LIMIT_ORDER_BURST", "4"),
        ("CATALOG_PREFERRED_EXCHANGE", " ")].lookup name
    let os : NodeOptions := ⟨[(.subscriberTimeoutMs, "0"), (.queueCapacity, "64")]⟩
    let config := NodeConfig.ofOptions os env
    NodeOptions.read ["--queue-capacity", "64", "--subscriber-timeout-ms=0"] env = .ok os ∧
      config.bridge.queueCapacity = 64 ∧ config.bridge.subscriberTimeout = none ∧
      config.bridge.stopGrace = .ofSeconds 2 ∧
      config.rateLimits.get .orderPlacement = ⟨10, 4⟩ ∧
      config.catalog.preferredExchange = .nse := by
  intro env os config
  have hread : NodeOptions.read ["--queue-capacity", "64", "--subscriber-timeout-ms=0"] env =
      .ok os := rfl
  obtain ⟨hoption, hvariable, hzero, -, hblank, -⟩ :=
    uppermost_layer_counts (NodeOptions.readable_of_read hread) env
  have hcapacity : Text.unsigned? 64 "64" = some config.bridge.queueCapacity :=
    hoption .queueCapacity "64" rfl
  have hgrace : config.bridge.stopGrace = (found? .stopGrace env).getD (.ofSeconds 2) :=
    hvariable .stopGrace rfl
  have hrate : (config.rateLimits.get .orderPlacement).rate =
      (found? (.rate .orderPlacement) env).getD 10 := hvariable (.rate .orderPlacement) rfl
  have hburst : (config.rateLimits.get .orderPlacement).capacity =
      (found? (.burst .orderPlacement) env).getD 10 := hvariable (.burst .orderPlacement) rfl
  refine ⟨hread, ?_, hzero "0" rfl (by decide), ?_, ?_, hblank " " rfl rfl (by decide)⟩
  · exact Option.some.inj (hcapacity.symm.trans (by decide))
  · rw [hgrace]
    decide
  · exact (RateLimit.mk.injEq ..).mpr ⟨hrate, hburst.trans (by decide)⟩

end NodeSetting

end TickFeed
