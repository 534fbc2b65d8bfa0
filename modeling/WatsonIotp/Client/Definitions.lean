import WatsonIotp.Text.StdString
import Mathlib.Data.Int.Notation

/-!
# Topics and constants of the client
-/

/-- `DEFAULT_TIMEOUT()`, in milliseconds. -/
def defaultTimeout : Int := 10000

/-! ### Topics of the device management protocol -/

def serverResponseTopic : StdString := "iotdm-1/response".toList

def serverUpdateTopic : StdString := "iotdm-1/device/update".toList

def deviceReponseTopic : StdString := "iotdevice-1/response".toList

def deviceNotifyTopic : StdString := "iotdevice-1/notify".toList

def serverDeviceRebootTopic : StdString := "iotdm-1/mgmt/initiate/device/reboot".toList

def serverFactoryResetTopic : StdString := "iotdm-1/mgmt/initiate/device/factory_reset".toList

def serverObserveTopic : StdString := "iotdm-1/observe".toList

def serverCancelTopic : StdString := "iotdm-1/cancel".toList

def serverFirmwareDownloadTopic : StdString :=
  "iotdm-1/mgmt/initiate/firmware/download".toList

def serverFirmwareUpdateTopic : StdString := "iotdm-1/mgmt/initiate/firmware/update".toList
