import NanoHat.Foundations.Runs
import NanoHat.Foundations.Ledger
import NanoHat.Hal.UbusReal
import NanoHat.Hal.UbusRealCalls
import NanoHat.Hal.UbusBackoff
import NanoHat.Ui.Anim
import NanoHat.Ui.PageController
import NanoHat.Ui.PageControllerInvariant
import NanoHat.Status.ServiceConfig
import NanoHat.Status.SysStatus
import NanoHat.Status.Queries
import NanoHat.Status.Refresh
import NanoHat.Foundations.Ring
import NanoHat.Hal.Gpio
import NanoHat.Hal.GpioButton
import NanoHat.Hal.GpioClassify
import NanoHat.Ui.PageServices
import NanoHat.Ui.Pages
import NanoHat.Ui.UiController
import NanoHat.Status.Moves
import NanoHat.Ui.ServicesDialog
import NanoHat.Ui.UiSteps
import NanoHat.Ui.ControlRequests
import NanoHat.Ui.Transitions
import NanoHat.Ui.ErrorIcon
import NanoHat.Hal.GpioRecord
import NanoHat.Ui.MainLoop
import NanoHat.Foundations.FoldMin
import NanoHat.Hal.GpioTimer
import NanoHat.Hal.GpioDebounce
import NanoHat.Status.RefreshInterval
import NanoHat.Hal.UbusMock
import NanoHat.Hal.UbusMockReal
import NanoHat.Adr0005.RingQueue
import NanoHat.Foundations.Machine
import NanoHat.Adr0005.RingQueueList
import NanoHat.Adr0005.EventQueue
import NanoHat.Adr0005.WorkQueues
import NanoHat.Adr0005.ServiceQueries
import NanoHat.Adr0005.QueryMatching
import NanoHat.Foundations.Rounding
import NanoHat.Ui.AnimProgress
import NanoHat.Ui.KeyTimes
import NanoHat.Ui.ButtonReports
import NanoHat.Ui.Timeouts
import NanoHat.Foundations.Recorder
import NanoHat.Status.CpuUsage
import NanoHat.Status.Format
import NanoHat.Status.NetworkStats
import NanoHat.Status.ServiceTokens
import NanoHat.Ui.ServicesSelection
import NanoHat.Ui.UiDraw
import NanoHat.Ui.PageRender
import NanoHat.Ui.OnScreen
import NanoHat.Foundations.Handles
import NanoHat.Hal.UbusRealTrace
import NanoHat.Status.Stack
import NanoHat.Status.StackRefines
import NanoHat.Status.Contexts
import NanoHat.Adr0005.EventWait
import NanoHat.Adr0005.TaskWait
import NanoHat.Adr0005.ControlChannel
import NanoHat.Adr0005.ResultWait
import NanoHat.Adr0005.UbusInvoke
import NanoHat.Adr0005.UbusWorker
import NanoHat.Adr0005.GpioEvents
