import EspressifApp.Reactive.Machine
import EspressifApp.Reactive.Blocks
import EspressifApp.Arithmetic.Scaling
import EspressifApp.Bluetooth.Subscriptions
import EspressifApp.Bluetooth.Addressing
import EspressifApp.Bluetooth.Advertising
import EspressifApp.Bluetooth.BatteryLevel
import EspressifApp.Bluetooth.Registration
import EspressifApp.Bluetooth.Isolation
import EspressifApp.Bluetooth.Handles
import EspressifApp.Bluetooth.Writes
import EspressifApp.Logger.Ownership
import EspressifApp.Logger.Delivery
import EspressifApp.Stdlib.Strtol
import EspressifApp.Pilot.Times
import EspressifApp.Commands.Tasks
import EspressifApp.Commands.Numbers
import EspressifApp.Addons.Exclusion
import EspressifApp.Pilot.Light
import EspressifApp.Collections.Queue
import EspressifApp.WorkQueue.Rest
import EspressifApp.MemoryPool.ZeroCopy
import EspressifApp.MemoryPool.Limits
import EspressifApp.Addons.ConditionVariable
