import ClawKernel.Server.Channels

/-! Where the notify sender of a connection is kept: in the channels it registered, and among
the subscribers of the hot loader. A connection is known by its number.
-/
namespace ClawKernel.Server.Senders
open Lib.Json Lib.Runs Lib.Tables Server.Protocol
open Server.Channels (ChannelRegistry RegisteredChannel)

/-- `counter` is the number of the next connection, `live` those whose handler still runs. -/
structure Kernel where
  counter : Nat
  live : List Nat
  registry : ChannelRegistry
  watchedDirs : List String
  subscribers : List Nat

def Kernel.new : Kernel := ⟨0,[],.new,[],[]⟩

/-- `watched` is what watching a new directory comes to; `full` are the subscribers whose
queue has no room when a reload is announced. -/
inductive Event where
  | connect
  | channelRegister (conn : Nat) (channelType channelId : String) (config : Value)
  | channelClose (channelId : String)
  | watchDir (conn : Nat) (path : String) (watched : Except String Unit)
  | reloadNotification (full : List Nat)
  | finish (conn : Nat)

def handleChannelRegister (s : Kernel) (conn : Nat) (channelType channelId : String) (config : Value) :
    Kernel × Except ServerError Value :=
  match s.registry.register channelType channelId config (some conn) with
  | (_,.error message) => (s,.error (.serialization message))
  | (registry,.ok _) =>
    ({ s with registry := registry },
      .ok (.object [("channel_id",.string channelId),("ok",.bool true),("type",.string channelType)]))

/-- `channel.close` and `channel.unregister`, by whatever connection. -/
def handleChannelClose (s : Kernel) (channelId : String) : Kernel × Except ServerError Value :=
  ({ s with registry := (s.registry.unregister channelId).1 },
    .ok (.object [("channel_id",.string channelId),("ok",.bool (s.registry.unregister channelId).2)]))

/-- A directory that is watched already is not watched again. -/
def watchDir (watchedDirs : List String) (path : String) (watched : Except String Unit) :
    Except String (List String) :=
  if path ∈ watchedDirs then .ok watchedDirs else watched.map (fun _ => path :: watchedDirs)

def handleToolWatchDir (s : Kernel) (conn : Nat) (path : String) (watched : Except String Unit) :
    Kernel × Except ServerError Value :=
  match watchDir s.watchedDirs path watched with
  | .error message => (s,.error (.serialization ("tool.watch_dir failed: " ++ message)))
  | .ok watchedDirs =>
    ({ s with watchedDirs := watchedDirs,subscribers := s.subscribers.insert conn },
      .ok (.object [("path",.string path),("status",.string "watching")]))

def step (s : Kernel) : Event → Kernel
  | .connect => { s with counter := s.counter + 1,live := s.counter :: s.live }
  | .channelRegister conn channelType channelId config =>
    if conn ∈ s.live then (handleChannelRegister s conn channelType channelId config).1 else s
  | .channelClose channelId => (handleChannelClose s channelId).1
  | .watchDir conn path watched => if conn ∈ s.live then (handleToolWatchDir s conn path watched).1 else s
  | .reloadNotification full =>
    { s with subscribers := s.subscribers.filter (fun conn => conn ∈ s.live ∧ conn ∉ full) }
  | .finish conn =>
    { s with
      live := s.live.filter (fun other => other ≠ conn)
      subscribers := s.subscribers.filter (fun other => other ≠ conn) }

def Exited (s : Kernel) (conn : Nat) : Prop := conn < s.counter ∧ conn ∉ s.live

/-- The channel is registered with the sender of the connection. -/
def Refers (s : Kernel) (channelId : String) (conn : Nat) : Prop :=
  ∃ channel, s.registry.channels.lookup channelId = some channel ∧ channel.outboundTx = some conn

/-- Nothing refers to a connection whose handler has exited, so that only the channel of a
live connection can stand in the way of registering its id. -/
structure NoDead (s : Kernel) : Prop where
  channels : ∀ conn, Exited s conn → ∀ channelId, ¬Refers s channelId conn
  subscribers : ∀ conn, Exited s conn → conn ∉ s.subscribers
  again : ∀ conn channelType channelId config, (∀ other ∈ s.live, ¬Refers s channelId other) →
    ∃ reply, (handleChannelRegister s conn channelType channelId config).2 = .ok reply

/-- A connection ends only after its channels are closed. -/
def Closed (s : Kernel) : Event → Prop
  | .finish conn => conn ∈ s.live → ∀ channelId, ¬Refers s channelId conn
  | _ => True

/-- Every sender that is kept was that of a connection. -/
structure Known (s : Kernel) : Prop where
  senders : ∀ channelId channel, s.registry.channels.lookup channelId = some channel →
    ∃ conn < s.counter, channel.outboundTx = some conn
  live : ∀ conn ∈ s.live, conn < s.counter

section Handlers
variable (s : Kernel)

theorem register_free (conn : Nat) (channelType channelId : String) (config : Value)
    (free : channelId ∉ s.registry.channels) :
    handleChannelRegister s conn channelType channelId config =
      ({ s with registry := { s.registry with
          channels := s.registry.channels.insert channelId ⟨channelId,channelType,config,some conn⟩ } },
        .ok (.object [("channel_id",.string channelId),("ok",.bool true),("type",.string channelType)])) := by
  unfold handleChannelRegister ChannelRegistry.register
  rw [if_neg free]

theorem register_taken (conn : Nat) (channelType channelId : String) (config : Value)
    (taken : channelId ∈ s.registry.channels) :
    handleChannelRegister s conn channelType channelId config =
      (s,.error (.serialization ("channel '" ++ channelId ++ "' is already registered"))) := by
  unfold handleChannelRegister ChannelRegistry.register
  rw [if_pos taken]

theorem channelRegister_cases (conn : Nat) (channelType channelId : String) (config : Value) :
    step s (.channelRegister conn channelType channelId config) = s ∨
      conn ∈ s.live ∧ step s (.channelRegister conn channelType channelId config) =
        { s with registry := { s.registry with
          channels := s.registry.channels.insert channelId ⟨channelId,channelType,config,some conn⟩ } } := by
  rw [step]
  split
  · by_cases taken : channelId ∈ s.registry.channels
    · rw [register_taken s conn channelType channelId config taken]
      exact Or.inl rfl
    · rw [register_free s conn channelType channelId config taken]
      exact Or.inr ⟨‹_›,rfl⟩
  · exact Or.inl rfl

theorem watchDir_cases (conn : Nat) (path : String) (watched : Except String Unit) :
    step s (.watchDir conn path watched) = s ∨
      conn ∈ s.live ∧ ∃ watchedDirs, step s (.watchDir conn path watched) =
        { s with watchedDirs := watchedDirs,subscribers := s.subscribers.insert conn } := by
  rw [step]
  split
  · unfold handleToolWatchDir
    split
    · exact Or.inl rfl
    · exact Or.inr ⟨‹_›,_,rfl⟩
  · exact Or.inl rfl

/-- What a handler leaves in the table of channels: what was there, or a channel of the
connection that registers it. -/
theorem lookup_step (event : Event) (channelId : String) (channel : RegisteredChannel)
    (found : (step s event).registry.channels.lookup channelId = some channel) :
    s.registry.channels.lookup channelId = some channel ∨
      ∃ conn channelType config, event = .channelRegister conn channelType channelId config ∧ conn ∈ s.live ∧
        channel.outboundTx = some conn := by
  cases event with
  | channelRegister conn channelType registered config =>
    rcases channelRegister_cases s conn channelType registered config with same | ⟨live,added⟩
    · rw [same] at found
      exact Or.inl found
    · rw [added] at found
      rcases lookup_of_insert s.registry.channels registered channelId _ channel found with ⟨rfl,rfl⟩ | ⟨_,before⟩
      · exact Or.inr ⟨conn,channelType,config,rfl,live,rfl⟩
      · exact Or.inl before
  | channelClose closed =>
    change (s.registry.channels.erase closed).lookup channelId = some channel at found
    exact Or.inl (lookup_of_erase _ _ _ _ found).2
  | watchDir conn path watched =>
    rcases watchDir_cases s conn path watched with same | ⟨_,watchedDirs,added⟩
    · rw [same] at found
      exact Or.inl found
    · rw [added] at found
      exact Or.inl found
  | _ => exact Or.inl found

theorem refers_step (event : Event) (channelId : String) (conn : Nat) (refers : Refers (step s event) channelId conn) :
    Refers s channelId conn ∨ conn ∈ s.live := by
  obtain ⟨channel,found,sender⟩ := refers
  rcases lookup_step s event channelId channel found with before | ⟨other,_,_,_,live,own⟩
  · exact Or.inl ⟨channel,before,sender⟩
  · rw [sender] at own
    rw [Option.some_inj.mp own]
    exact Or.inr live

theorem subscribers_step (event : Event) (conn : Nat) (member : conn ∈ (step s event).subscribers) :
    conn ∈ s.subscribers ∨ conn ∈ s.live := by
  cases event with
  | channelRegister other channelType registered config =>
    rcases channelRegister_cases s other channelType registered config with same | ⟨_,added⟩
    · rw [same] at member
      exact Or.inl member
    · rw [added] at member
      exact Or.inl member
  | watchDir other path watched =>
    rcases watchDir_cases s other path watched with same | ⟨live,watchedDirs,added⟩
    · rw [same] at member
      exact Or.inl member
    · rw [added] at member
      rcases List.mem_insert_iff.mp member with same | before
      · rw [same]
        exact Or.inr live
      · exact Or.inl before
  | reloadNotification full => exact Or.inl (List.mem_filter.mp member).1
  | finish other => exact Or.inl (List.mem_filter.mp member).1
  | _ => exact Or.inl member

theorem live_step (event : Event) :
    (step s event).live =
        (match event with
        | .connect => s.counter :: s.live
        | .finish conn => s.live.filter (fun other => other ≠ conn)
        | _ => s.live) ∧
      (step s event).counter =
        match event with
        | .connect => s.counter + 1
        | _ => s.counter := by
  cases event with
  | channelRegister conn channelType channelId config =>
    rcases channelRegister_cases s conn channelType channelId config with same | ⟨_,added⟩
    · rw [same]
      exact ⟨rfl,rfl⟩
    · rw [added]
      exact ⟨rfl,rfl⟩
  | watchDir conn path watched =>
    rcases watchDir_cases s conn path watched with same | ⟨_,watchedDirs,added⟩
    · rw [same]
      exact ⟨rfl,rfl⟩
    · rw [added]
      exact ⟨rfl,rfl⟩
  | _ => exact ⟨rfl,rfl⟩

/-- A handler that has exited had done so before, or exits in this step. -/
theorem exited_step (event : Event) (conn : Nat) (exited : Exited (step s event) conn) :
    Exited s conn ∨ event = .finish conn ∧ conn ∈ s.live := by
  obtain ⟨before,ended⟩ := exited
  obtain ⟨live,counter⟩ := live_step s event
  rw [live] at ended
  rw [counter] at before
  cases event with
  | connect =>
    obtain ⟨other,absent⟩ := not_or.mp (mt List.mem_cons.mpr ended)
    exact Or.inl ⟨Nat.lt_of_le_of_ne (Nat.le_of_lt_succ before) other,absent⟩
  | finish closed =>
    by_cases running : conn ∈ s.live
    · right
      refine ⟨?_,running⟩
      by_contra other
      apply ended
      exact List.mem_filter.mpr ⟨running,decide_eq_true (fun same => other (congrArg Event.finish same.symm))⟩
    · exact Or.inl ⟨before,running⟩
  | _ => exact Or.inl ⟨before,ended⟩

theorem known_step (event : Event) (known : Known s) : Known (step s event) := by
  obtain ⟨live,counter⟩ := live_step s event
  have grows : s.counter ≤ (step s event).counter := by
    rw [counter]
    cases event with
    | connect => exact Nat.le_succ _
    | _ => exact Nat.le_refl _
  constructor
  · intro channelId channel found
    rcases lookup_step s event channelId channel found with before | ⟨conn,_,_,_,running,sender⟩
    · obtain ⟨conn,below,sender⟩ := known.senders channelId channel before
      exact ⟨conn,Nat.lt_of_lt_of_le below grows,sender⟩
    · exact ⟨conn,Nat.lt_of_lt_of_le (known.live conn running) grows,sender⟩
  · intro conn running
    rw [live] at running
    cases event with
    | connect =>
      rcases List.mem_cons.mp running with same | before
      · rw [same,counter]
        exact Nat.lt_succ_self _
      · exact Nat.lt_of_lt_of_le (known.live conn before) grows
    | finish closed => exact Nat.lt_of_lt_of_le (known.live conn (List.mem_filter.mp running).1) grows
    | _ => exact Nat.lt_of_lt_of_le (known.live conn running) grows

/-- If no dead connection is referred to, a taken id is that of a live one. -/
theorem again_of_channels (known : Known s) (channels : ∀ conn, Exited s conn → ∀ channelId, ¬Refers s channelId conn)
    (conn : Nat) (channelType channelId : String) (config : Value) (free : ∀ other ∈ s.live, ¬Refers s channelId other) :
    ∃ reply, (handleChannelRegister s conn channelType channelId config).2 = .ok reply := by
  by_cases taken : channelId ∈ s.registry.channels
  · obtain ⟨channel,found⟩ := Option.isSome_iff_exists.mp (AList.lookup_isSome.mpr taken)
    obtain ⟨holder,below,sender⟩ := known.senders channelId channel found
    have refers : Refers s channelId holder := ⟨channel,found,sender⟩
    by_cases live : holder ∈ s.live
    · exact absurd refers (free holder live)
    · exact absurd refers (channels holder ⟨below,live⟩ channelId)
  · rw [register_free s conn channelType channelId config taken]
    exact ⟨_,rfl⟩

theorem step_noDead_iff (event : Event) (known : Known s) (noDead : NoDead s) :
    NoDead (step s event) ↔ Closed s event := by
  constructor
  · intro after
    cases event with
    | finish conn =>
      intro live channelId refers
      apply after.channels conn ⟨known.live conn live,?_⟩ channelId refers
      intro member
      exact of_decide_eq_true (List.mem_filter.mp member).2 rfl
    | _ => exact True.intro
  · intro closed
    have channels : ∀ conn, Exited (step s event) conn → ∀ channelId, ¬Refers (step s event) channelId conn := by
      intro conn exited channelId refers
      rcases exited_step s event conn exited with before | ⟨ends,live⟩
      · rcases refers_step s event channelId conn refers with old | live
        · exact noDead.channels conn before channelId old
        · exact before.2 live
      · rw [ends] at closed refers
        exact closed live channelId refers
    refine ⟨channels,?_,again_of_channels (step s event) (known_step s event known) channels⟩
    intro conn exited member
    rcases exited_step s event conn exited with before | ⟨ends,_⟩
    · rcases subscribers_step s event conn member with old | live
      · exact noDead.subscribers conn before old
      · exact before.2 live
    · rw [ends] at member
      exact of_decide_eq_true (List.mem_filter.mp member).2 rfl

end Handlers

theorem new_known : Known .new where
  senders := nofun
  live := nofun

theorem new_noDead : NoDead .new where
  channels := fun conn exited => absurd exited.1 (Nat.not_lt_zero conn)
  subscribers := fun conn exited => absurd exited.1 (Nat.not_lt_zero conn)
  again := fun _ _ _ _ _ => ⟨_,rfl⟩

/-- No dead sender is kept exactly if every connection has its channels closed before its
handler exits. -/
theorem no_dead_throughout_iff (events : List Event) :
    Always step NoDead .new events ↔ Along step Closed .new events := by
  apply always_iff_along step Closed NoDead Known (fun _ => True)
  · exact fun s event known _ => known_step s event known
  · exact fun s event known _ noDead => step_noDead_iff s event known noDead
  · exact fun _ _ => trivial
  · exact new_known
  · exact new_noDead

/-- An adapter registers its channel and disconnects. -/
def reconnecting : List Event := [.connect,.channelRegister 0 "discord" "bot" .null,.finish 0,.connect]

theorem reconnect_refused :
    ¬Always step NoDead .new reconnecting ∧
      (handleChannelRegister (run step .new reconnecting) 1 "discord" "bot" .null).2 =
        .error (.serialization "channel 'bot' is already registered") := by
  constructor
  · intro always
    have last := always.2.2.2.2
    exact last.channels 0 ⟨by decide,by decide⟩ "bot" ⟨_,rfl,rfl⟩
  · rfl

end ClawKernel.Server.Senders
