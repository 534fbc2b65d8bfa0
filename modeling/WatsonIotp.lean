import WatsonIotp.Client.Acceptance
import WatsonIotp.Client.ClientId
import WatsonIotp.Client.Command
import WatsonIotp.Client.CommandTopics
import WatsonIotp.Client.Configuration
import WatsonIotp.Client.ConnectOptions
import WatsonIotp.Client.Connection
import WatsonIotp.Client.Definitions
import WatsonIotp.Client.DeviceInfo
import WatsonIotp.Client.Dispatch
import WatsonIotp.Client.Events
import WatsonIotp.Client.GatewayCommands
import WatsonIotp.Client.Manage
import WatsonIotp.Client.Passes
import WatsonIotp.Client.Properties
import WatsonIotp.Client.Registrations
import WatsonIotp.Client.Release
import WatsonIotp.Client.Replies
import WatsonIotp.Client.Session
import WatsonIotp.Client.Subscription
import WatsonIotp.Client.TopicFilter
import WatsonIotp.Client.Update
import WatsonIotp.Client.Validation
import WatsonIotp.Client.Wire
import WatsonIotp.Concurrency.Cancel
import WatsonIotp.Concurrency.Connect
import WatsonIotp.Concurrency.Deadlock
import WatsonIotp.Concurrency.Destruction
import WatsonIotp.Concurrency.LostReply
import WatsonIotp.Concurrency.Polling
import WatsonIotp.Concurrency.Registration
import WatsonIotp.Concurrency.Reply
import WatsonIotp.Concurrency.ReplyOrder
import WatsonIotp.Concurrency.Reports
import WatsonIotp.Concurrency.RequestId
import WatsonIotp.Concurrency.Response
import WatsonIotp.Concurrency.StoredResponses
import WatsonIotp.Concurrency.StrandedReply
import WatsonIotp.Concurrency.TokenLife
import WatsonIotp.Concurrency.TokenRecord
import WatsonIotp.Concurrency.TokenStep
import WatsonIotp.Concurrency.Tokens
import WatsonIotp.Handler.Accepts
import WatsonIotp.Handler.Action
import WatsonIotp.Handler.Attribute
import WatsonIotp.Handler.Basic
import WatsonIotp.Handler.Firmware
import WatsonIotp.Handler.FirmwareDetails
import WatsonIotp.Handler.FirmwareJson
import WatsonIotp.Handler.Location
import WatsonIotp.Handler.Polling
import WatsonIotp.Handler.Response
import WatsonIotp.Handler.Update
import WatsonIotp.Json.Accepted
import WatsonIotp.Json.Object
import WatsonIotp.Json.Progress
import WatsonIotp.Json.QuotedText
import WatsonIotp.Json.Reader
import WatsonIotp.Json.RoundTrip
import WatsonIotp.Json.Value
import WatsonIotp.Json.Writer
import WatsonIotp.Machine.Basic
import WatsonIotp.Machine.Exchange
import WatsonIotp.Machine.Heap
import WatsonIotp.Machine.Monitor
import WatsonIotp.Machine.Proc
import WatsonIotp.Mqtt.Accounting
import WatsonIotp.Mqtt.Commands
import WatsonIotp.Mqtt.Contents
import WatsonIotp.Mqtt.Inbound
import WatsonIotp.Mqtt.MessageIds
import WatsonIotp.Mqtt.Outbound
import WatsonIotp.Mqtt.Packet
import WatsonIotp.Mqtt.Processing
import WatsonIotp.Mqtt.Reading
import WatsonIotp.Mqtt.Requests
import WatsonIotp.Mqtt.SocketBuffer
import WatsonIotp.Mqtt.Topics
import WatsonIotp.Mqtt.Utf8
import WatsonIotp.Mqtt.Writing
import WatsonIotp.Text.DateTime
import WatsonIotp.Text.Number
import WatsonIotp.Text.Search
import WatsonIotp.Text.StdString
import WatsonIotp.Text.Wildcard
